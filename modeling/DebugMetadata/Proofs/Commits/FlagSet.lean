import DebugMetadata.Proofs.Graph.Search
import DebugMetadata.Proofs.Permanence.Arenas
import Mathlib.Data.Set.Insert

/-!
# The flags of a graph as a set

Presence of a flag is tested by the handle of its tuple alone.  Equal tuples have one handle,
so this is a test for the tuple, and the list of flags is a set to which a flag is added: what
was there stays, a flag that was there is not added again, and the order of additions does
not matter.  Nothing is assumed of who else writes to the list, but that what is listed
exists.
-/

namespace DebugMetadata

namespace Graph

variable {g g' : Graph} {flag other : ModuleFlag} {id : NodeId}

theorem KeepsNamed.mem_namedNodes (h : g.KeepsNamed g') (hg : g.Indexed) (hg' : g'.Indexed)
    {name : String} (hid : id ∈ g.namedNodes name) : id ∈ g'.namedNodes name := by
  rw [namedNodes] at hid ⊢
  cases hids : g.named.find? name with
  | none =>
      rw [hids] at hid
      cases hid with
      | mk hid => cases hid
  | some ids =>
      obtain ⟨n, hentry⟩ := hg.named.find?_eq_some_iff.mp hids
      obtain ⟨⟨name', ids'⟩, hentry', rfl, hinitial⟩ := h n _ hentry
      rw [hids, Option.getD_some] at hid
      rw [hg'.named.find?_eq_some_iff.mpr ⟨n, hentry'⟩, Option.getD_some]
      exact Array.mem_toList_iff.mp (hinitial.subset (Array.mem_toList_iff.mpr hid))

/-- The tuples that are listed as flags. -/
def flagTuples (g : Graph) : Set (List Operand) :=
  { operands | ∃ id ∈ g.namedNodes ModuleFlag.listName, g.node? id = some (.tuple operands) }

/-- Whatever is listed as a flag is a node of the graph. -/
def FlagsExist (g : Graph) : Prop :=
  ∀ id ∈ g.namedNodes ModuleFlag.listName, ∃ node, g.node? id = some node

/-- What is listed as a flag stays listed. -/
theorem flagTuples_subset (hg : g.Indexed) (hg' : g'.Indexed) (hextends : g.Extends g')
    (hnamed : g.KeepsNamed g') : g.flagTuples ⊆ g'.flagTuples := by
  rintro operands ⟨id, hid, hnode⟩
  exact ⟨id, hnamed.mem_namedNodes hg hg' hid, hextends.node? hnode⟩

/-- A flag that is listed is not added again. -/
theorem Indexed.addFlag_of_mem (hg : g.Indexed) (h : flag.operands ∈ g.flagTuples) :
    g.addFlag flag = (false, g) := by
  obtain ⟨id, hid, hnode⟩ := h
  have hadd : g.add (.tuple flag.operands) = (id, g) :=
    add_of_found ((hg.shared _ id).mpr ⟨hnode, rfl⟩)
  rw [addFlag_eq, hadd, if_pos (Array.contains_iff_mem.mpr hid)]

/-- A flag that is not listed is added at the end, also where its tuple is in the graph. -/
theorem Indexed.addFlag_of_not_mem (hg : g.Indexed) (hexist : g.FlagsExist)
    (h : flag.operands ∉ g.flagTuples) :
    g.addFlag flag = (true, (g.add (.tuple flag.operands)).2.addNamed ModuleFlag.listName
      (g.add (.tuple flag.operands)).1) := by
  have hnode : (g.add (.tuple flag.operands)).2.node? (g.add (.tuple flag.operands)).1 =
      some (.tuple flag.operands) := hg.node?_add _
  have hnew : (g.add (.tuple flag.operands)).1 ∉
      (g.add (.tuple flag.operands)).2.namedNodes ModuleFlag.listName := by
    rw [namedNodes_add]
    intro hmem
    -- What is listed was there before, so that it is the tuple itself.
    obtain ⟨node, hold⟩ := hexist _ hmem
    have hsame := ((g.extends_add (.tuple flag.operands)).node? hold).symm.trans hnode
    rw [Option.some.injEq] at hsame
    exact h ⟨_, hmem, hsame ▸ hold⟩
  rw [addFlag_eq, if_neg (mt Array.contains_iff_mem.mp hnew)]

/-- The addition of a flag tells whether it was not listed. -/
theorem Indexed.fst_addFlag_iff (hg : g.Indexed) (hexist : g.FlagsExist) (flag : ModuleFlag) :
    (g.addFlag flag).1 = true ↔ flag.operands ∉ g.flagTuples := by
  by_cases h : flag.operands ∈ g.flagTuples
  · rw [hg.addFlag_of_mem h]
    exact iff_of_false nofun (not_not_intro h)
  · rw [hg.addFlag_of_not_mem hexist h]
    exact iff_of_true rfl h

theorem Indexed.namedNodes_addFlag_of_not_mem (hg : g.Indexed) (hexist : g.FlagsExist)
    (h : flag.operands ∉ g.flagTuples) :
    (g.addFlag flag).2.namedNodes ModuleFlag.listName =
      (g.namedNodes ModuleFlag.listName).push (g.add (.tuple flag.operands)).1 := by
  rw [hg.addFlag_of_not_mem hexist h, (hg.add _).namedNodes_addNamed, if_pos rfl,
    namedNodes_add]

theorem Indexed.node?_addFlag_of_not_mem (hg : g.Indexed) (hexist : g.FlagsExist)
    (h : flag.operands ∉ g.flagTuples) :
    (g.addFlag flag).2.node? (g.add (.tuple flag.operands)).1 = some (.tuple flag.operands) := by
  rw [hg.addFlag_of_not_mem hexist h]
  exact hg.node?_add _

theorem FlagsExist.addFlag (hexist : g.FlagsExist) (hg : g.Indexed) (flag : ModuleFlag) :
    (g.addFlag flag).2.FlagsExist := by
  by_cases h : flag.operands ∈ g.flagTuples
  · rw [hg.addFlag_of_mem h]
    exact hexist
  · intro id hid
    rw [hg.namedNodes_addFlag_of_not_mem hexist h, Array.mem_push] at hid
    rcases hid with hold | rfl
    · obtain ⟨node, hnode⟩ := hexist id hold
      exact ⟨node, (g.extends_addFlag flag).node? hnode⟩
    · exact ⟨_, hg.node?_addFlag_of_not_mem hexist h⟩

/-- The addition of a flag is an insertion into a set. -/
theorem FlagsExist.flagTuples_addFlag (hexist : g.FlagsExist) (hg : g.Indexed)
    (flag : ModuleFlag) :
    (g.addFlag flag).2.flagTuples = insert flag.operands g.flagTuples := by
  by_cases h : flag.operands ∈ g.flagTuples
  · rw [hg.addFlag_of_mem h, Set.insert_eq_of_mem h]
  · have hlisted := hg.namedNodes_addFlag_of_not_mem hexist h
    have hnode := hg.node?_addFlag_of_not_mem hexist h
    ext operands
    rw [Set.mem_insert_iff]
    constructor
    · rintro ⟨id, hid, htuple⟩
      rw [hlisted, Array.mem_push] at hid
      rcases hid with hold | rfl
      · obtain ⟨node, hthere⟩ := hexist id hold
        have hsame := ((g.extends_addFlag flag).node? hthere).symm.trans htuple
        rw [Option.some.injEq] at hsame
        exact .inr ⟨id, hold, hsame ▸ hthere⟩
      · rw [hnode, Option.some.injEq, Node.tuple.injEq] at htuple
        exact .inl htuple.symm
    · rintro (rfl | hold)
      · refine ⟨_, ?_, hnode⟩
        rw [hlisted]
        exact Array.mem_push_self
      · exact flagTuples_subset hg (hg.addFlag flag) (g.extends_addFlag flag)
          (g.keepsNamed_addFlag flag) hold

/-- In whatever order two flags are added, the same tuples are listed. -/
theorem FlagsExist.flagTuples_addFlag_comm (hexist : g.FlagsExist) (hg : g.Indexed)
    (flag other : ModuleFlag) :
    ((g.addFlag flag).2.addFlag other).2.flagTuples =
      ((g.addFlag other).2.addFlag flag).2.flagTuples := by
  rw [(hexist.addFlag hg flag).flagTuples_addFlag (hg.addFlag flag),
    (hexist.addFlag hg other).flagTuples_addFlag (hg.addFlag other),
    hexist.flagTuples_addFlag hg, hexist.flagTuples_addFlag hg, Set.insert_comm]

theorem Indexed.find?_named_addFlag_of_ne (hg : g.Indexed) (flag : ModuleFlag) {name : String}
    (h : name ≠ ModuleFlag.listName) :
    (g.addFlag flag).2.named.find? name = g.named.find? name := by
  rw [addFlag_eq]
  split
  · rw [named_add]
  · rw [(hg.add _).find?_named_addNamed, if_neg h, named_add]

end Graph

namespace Session

variable {s : Session}

theorem perform_addFlag (s : Session) (flag : ModuleFlag) :
    s.perform (.addFlag flag) =
      .ok (.added (s.module.graph.addFlag flag).1,
        { s with module := { s.module with graph := (s.module.graph.addFlag flag).2 } }) := by
  simp only [perform]

/-- The addition of a flag changes the graph alone. -/
theorem exists_perform_addFlag (s : Session) (flag : ModuleFlag) :
    ∃ s', s.perform (.addFlag flag) = .ok (.added (s.module.graph.addFlag flag).1, s') ∧
      s'.module.graph = (s.module.graph.addFlag flag).2 ∧
      s' = { s with module := { s.module with graph := s'.module.graph } } :=
  ⟨_, s.perform_addFlag flag, rfl, rfl⟩

theorem perform_addFlag_of_mem {flag : ModuleFlag} (hs : s.module.graph.Indexed)
    (h : flag.operands ∈ s.module.graph.flagTuples) :
    s.perform (.addFlag flag) = .ok (.added false, s) := by
  rw [perform_addFlag, hs.addFlag_of_mem h]

/-- A flag that is listed is listed for good. -/
theorem perform_addFlag_later {flag : ModuleFlag} (hs : s.module.graph.Indexed)
    (h : flag.operands ∈ s.module.graph.flagTuples) (later : List Command) :
    (s.run later).2.perform (.addFlag flag) = .ok (.added false, (s.run later).2) := by
  have hgrows := (s.steps_run later).grows
  have hlater := indexed_run_of_indexed hs later
  exact perform_addFlag_of_mem hlater
    (Graph.flagTuples_subset hs hlater hgrows.nodes hgrows.named h)

theorem graph_run_addFlag_addFlag (s : Session) (flag other : ModuleFlag) :
    (s.run [.addFlag flag, .addFlag other]).2.module.graph =
      ((s.module.graph.addFlag flag).2.addFlag other).2 := by
  rw [run_cons (perform_addFlag s flag), run_cons (perform_addFlag _ other), run]

/-- In every session that a run leads to where whatever is listed as a flag exists, and for
every flag: its addition tells whether no listed node is its tuple.  If one is, nothing
changes.  If none is, the tuple is listed after the others, and no other named list, no
growable list, no node and nothing outside the graph changes.  At any later time the addition
of the same flag tells that it is there and changes nothing.  The listed tuples are a set to
which the tuple is added, in whatever order flags are. -/
theorem addFlag_inserts (commands : List Command) (workingDirectory : List UInt8) (name : String)
    (hrun : ((Session.start workingDirectory name).run commands).2 = s)
    (hexist : s.module.graph.FlagsExist) (flag : ModuleFlag) :
    ∃ added s',
      s.perform (.addFlag flag) = .ok (.added added, s') ∧
      (added = true ↔ ∀ id ∈ s.module.graph.namedNodes "llvm.module.flags",
        s.module.graph.node? id ≠
          some (.tuple [.i32 flag.behavior.code, .str flag.key, .i32 flag.value])) ∧
      (added = false → s' = s) ∧
      (added = true → ∃ id,
        s'.module.graph.namedNodes "llvm.module.flags" =
          (s.module.graph.namedNodes "llvm.module.flags").push id ∧
        s'.module.graph.node? id =
          some (.tuple [.i32 flag.behavior.code, .str flag.key, .i32 flag.value])) ∧
      s' = { s with module := { s.module with graph := s'.module.graph } } ∧
      (∀ other, other ≠ "llvm.module.flags" →
        s'.module.graph.named.find? other = s.module.graph.named.find? other) ∧
      s'.module.graph.lists = s.module.graph.lists ∧
      (∀ id node, s.module.graph.node? id = some node → s'.module.graph.node? id = some node) ∧
      (∀ later, (s'.run later).2.perform (.addFlag flag) =
        .ok (.added false, (s'.run later).2)) ∧
      s'.module.graph.flagTuples = insert flag.operands s.module.graph.flagTuples ∧
      ∀ other,
        (s.run [.addFlag flag, .addFlag other]).2.module.graph.flagTuples =
          (s.run [.addFlag other, .addFlag flag]).2.module.graph.flagTuples := by
  have hindexed := indexed_run commands workingDirectory name
  rw [hrun] at hindexed
  have hadds := hindexed.fst_addFlag_iff hexist flag
  have htuples := hexist.flagTuples_addFlag hindexed flag
  obtain ⟨s', hperform, hgraph, hframe⟩ := s.exists_perform_addFlag flag
  have hlisted : (∀ id ∈ s.module.graph.namedNodes ModuleFlag.listName,
      s.module.graph.node? id ≠ some (.tuple flag.operands)) ↔
        flag.operands ∉ s.module.graph.flagTuples :=
    ⟨fun h hmem => hmem.elim fun id hid => h id hid.1 hid.2,
      fun h id hid hnode => h ⟨id, hid, hnode⟩⟩
  rw [← hgraph] at htuples
  have hindexed' : s'.module.graph.Indexed := hgraph ▸ hindexed.addFlag flag
  refine ⟨_, s', hperform, ?_, ?_, ?_, hframe, ?_, ?_, ?_, ?_, htuples, ?_⟩
  · exact hadds.trans hlisted.symm
  · intro hadded
    have h : flag.operands ∈ s.module.graph.flagTuples :=
      not_not.mp fun hnot => Bool.false_ne_true (hadded.symm.trans (hadds.mpr hnot))
    rw [hindexed.addFlag_of_mem h] at hgraph
    rw [hframe, hgraph]
  · intro hadded
    have h := hadds.mp hadded
    rw [hgraph]
    exact ⟨_, hindexed.namedNodes_addFlag_of_not_mem hexist h,
      hindexed.node?_addFlag_of_not_mem hexist h⟩
  · intro other hother
    rw [hgraph]
    exact hindexed.find?_named_addFlag_of_ne flag hother
  · rw [hgraph]
    exact Graph.lists_addFlag _ _
  · intro id node hnode
    rw [hgraph]
    exact (Graph.extends_addFlag _ _).node? hnode
  · intro later
    exact perform_addFlag_later hindexed' (htuples ▸ Set.mem_insert _ _) later
  · intro other
    rw [graph_run_addFlag_addFlag, graph_run_addFlag_addFlag]
    exact hexist.flagTuples_addFlag_comm hindexed flag other

/-- The tuple of a flag is a node of the graph, but it is not listed. -/
def unlistedFlag : List Command :=
  [.edit (.add (.tuple TypedRecorder.dwarfVersion.operands))]

/-- A flag whose tuple is in the graph is added all the same, and is not added again. -/
theorem addFlag_inserts_of_unlisted :
    ∃ s s' id, ((Session.start [] "m").run unlistedFlag).2 = s ∧ s.module.graph.FlagsExist ∧
      s.module.graph.node? id = some (.tuple TypedRecorder.dwarfVersion.operands) ∧
      s.perform (.addFlag TypedRecorder.dwarfVersion) = .ok (.added true, s') ∧
      s'.perform (.addFlag TypedRecorder.dwarfVersion) = .ok (.added false, s') := by
  generalize hs : ((Session.start [] "m").run unlistedFlag).2 = s
  have hgraph : s.module.graph =
      ((∅ : Graph).add (.tuple TypedRecorder.dwarfVersion.operands)).2 := by
    rw [← hs]
    rfl
  have hnone (id : NodeId) : id ∉ s.module.graph.namedNodes ModuleFlag.listName := by
    rw [hgraph, Graph.namedNodes_add, Graph.namedNodes_empty]
    exact Array.not_mem_empty id
  have hnode := Graph.indexed_empty.node?_add (.tuple TypedRecorder.dwarfVersion.operands)
  rw [← hgraph] at hnode
  have hexist : s.module.graph.FlagsExist := fun id hid => absurd hid (hnone id)
  obtain ⟨added, s', hperform, hadded, -, -, -, -, -, -, hlater, -⟩ :=
    addFlag_inserts unlistedFlag [] "m" hs hexist TypedRecorder.dwarfVersion
  rw [hadded.mpr fun id hid => absurd hid (hnone id)] at hperform
  exact ⟨s, s', _, rfl, hexist, hnode, hperform, hlater []⟩

end Session

end DebugMetadata

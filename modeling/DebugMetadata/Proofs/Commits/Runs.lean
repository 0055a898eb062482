import DebugMetadata.Proofs.Commits.Flags
import DebugMetadata.Proofs.Graph.Named
import DebugMetadata.Proofs.Isolation.Families

/-!
# What a run commits

The compile units are found in two named lists and the flags in a third.  They are written
by recorders that are finalized, each as often as it is told to, and by requests for flags.
Kept beside a run is what was committed so far, in order, and the lists hold just that as
long as nothing else is written to them.
-/

namespace DebugMetadata

/-! ## Commits -/

namespace Recorder

/-- The compile unit of a typed recorder. -/
def typedUnit? : Recorder → Option NodeId
  | .off => none
  | .typed t => some t.unit
  | .tagged _ => none

/-- The compile unit of a tagged recorder. -/
def taggedUnit? : Recorder → Option NodeId
  | .off => none
  | .typed _ => none
  | .tagged t => some t.unit

/-- The flags that a recorder asks for when it is finalized, in order. -/
def flags : Recorder → List ModuleFlag
  | .off => []
  | .typed _ => [⟨.warning, "Dwarf Version", 4⟩, ⟨.warning, "Debug Info Version", 3⟩]
  | .tagged _ => [⟨.warning, "Debug Info Version", 1⟩]

theorem unit?_of_typedUnit? {r : Recorder} {unit : NodeId} (h : r.typedUnit? = some unit) :
    r.unit? = some unit := by
  cases r with
  | off => cases h
  | typed t => exact h
  | tagged t => cases h

theorem isOwn_typedUnit? : IsOwn typedUnit? where
  kept := by
    intro r r' hleads
    cases hleads with
    | off => rfl
    | typed h => exact congrArg some h.unit
    | tagged h => rfl
  fresh := by
    intro r r' m m' schema settings workingDirectory path event unit hm hcreate hr hunit hunit'
    exact isOwn_unit?.fresh hm hcreate hr (unit?_of_typedUnit? hunit) (unit?_of_typedUnit? hunit')

end Recorder

/-- What a run has committed. -/
structure Commits where
  /-- The recorders that were finalized, in order and as often as they were, each with its
  number. -/
  finalized : List (Nat × Recorder) := []
  /-- The flags that were asked for, in order and as often as they were. -/
  flags : List ModuleFlag := []

namespace Commits

def typedUnits (c : Commits) : List NodeId := c.finalized.filterMap (·.2.typedUnit?)

def taggedUnits (c : Commits) : List NodeId := c.finalized.filterMap (·.2.taggedUnit?)

def request (c : Commits) (flag : ModuleFlag) : Commits :=
  { c with flags := c.flags ++ [flag] }

def finalize (c : Commits) (n : Nat) (r : Recorder) : Commits :=
  { finalized := c.finalized ++ [(n, r)], flags := c.flags ++ r.flags }

/-- Every flag was asked for by a recorder that was finalized. -/
def FromRecorders (c : Commits) : Prop :=
  ∀ flag ∈ c.flags, ∃ call ∈ c.finalized, flag ∈ call.2.flags

theorem typedUnits_finalize (c : Commits) (n : Nat) (r : Recorder) :
    (c.finalize n r).typedUnits = c.typedUnits ++ r.typedUnit?.toList :=
  filterMap_concat _ c.finalized (n, r)

theorem taggedUnits_finalize (c : Commits) (n : Nat) (r : Recorder) :
    (c.finalize n r).taggedUnits = c.taggedUnits ++ r.taggedUnit?.toList :=
  filterMap_concat _ c.finalized (n, r)

end Commits

/-- Whether the command leaves the lists of units and flags to the recorders and to requests
for flags. -/
def Command.leavesCommits : Command → Bool
  | .edit (.addNamed name _) =>
    !(["llvm.dbg.cu", "ori.llvm.dbg.cu", "llvm.module.flags"].contains name)
  | _ => true

theorem Command.not_mem_of_leavesCommits {name : String} {node : NodeId}
    (h : (Command.edit (.addNamed name node)).leavesCommits = true) :
    name ≠ TypedRecorder.unitListName ∧ name ≠ TaggedRecorder.unitListName ∧
      name ≠ ModuleFlag.listName := by
  rw [leavesCommits, Bool.not_eq_true', List.contains_eq_mem, decide_eq_false_iff_not,
    List.mem_cons, List.mem_cons, List.mem_singleton, not_or, not_or] at h
  exact h

def Command.asksForFlag : Command → Bool
  | .addFlag _ => true
  | _ => false

/-- What is committed after a command that succeeds. -/
def Session.commitsAfter (s : Session) (c : Commits) : Command → Commits
  | .addFlag flag => c.request flag
  | .recorder n .finalize => (s.recorders[n]?).elim c fun slot => c.finalize n slot.recorder
  | _ => c

/-! ## The lists of a graph -/

namespace Graph

variable {g g' : Graph} {typed tagged : List NodeId} {flags : List ModuleFlag} {name : String}
  {node : NodeId}

/-- The lists of units and flags hold these units and what was asked for, and no named list
is empty. -/
structure HoldsCommits (g : Graph) (typed tagged : List NodeId) (flags : List ModuleFlag) :
    Prop where
  indexed : g.Indexed
  typed : (g.namedNodes TypedRecorder.unitListName).toList = typed
  tagged : (g.namedNodes TaggedRecorder.unitListName).toList = tagged
  flags : g.HoldsFlags flags
  nonempty : ∀ name ∈ g.named.keys, g.namedNodes name ≠ #[]

theorem Indexed.nonempty_addNamed (hg : g.Indexed)
    (h : ∀ name ∈ g.named.keys, g.namedNodes name ≠ #[]) :
    ∀ other ∈ (g.addNamed name node).named.keys, (g.addNamed name node).namedNodes other ≠ #[] := by
  intro other hother
  rw [hg.namedNodes_addNamed]
  split
  · exact Array.push_ne_empty
  next hne =>
    rcases NamedLists.mem_keys_add hother with hold | hnew
    · exact h other hold
    · exact absurd hnew hne

namespace HoldsCommits

theorem empty : (∅ : Graph).HoldsCommits [] [] [] :=
  ⟨indexed_empty, congrArg Array.toList (namedNodes_empty _),
    congrArg Array.toList (namedNodes_empty _), .empty,
    fun _ hname => absurd hname List.not_mem_nil⟩

/-- A change that leaves the named lists as they are commits nothing. -/
theorem of_named_eq (h : g.HoldsCommits typed tagged flags) (hgrows : g.Grows g')
    (hnamed : g'.named = g.named) : g'.HoldsCommits typed tagged flags := by
  have hlists (name : String) : g'.namedNodes name = g.namedNodes name := by
    unfold namedNodes
    rw [hnamed]
  refine ⟨hgrows.indexed h.indexed, ?_, ?_, h.flags.mono hgrows.nodes (hlists _), ?_⟩
  · rw [hlists]
    exact h.typed
  · rw [hlists]
    exact h.tagged
  · intro name hname
    rw [hnamed] at hname
    rw [hlists]
    exact h.nonempty name hname

/-- A node that is added to another list is not committed. -/
theorem addNamed (h : g.HoldsCommits typed tagged flags)
    (htyped : name ≠ TypedRecorder.unitListName) (htagged : name ≠ TaggedRecorder.unitListName)
    (hflags : name ≠ ModuleFlag.listName) (node : NodeId) :
    (g.addNamed name node).HoldsCommits typed tagged flags := by
  refine ⟨h.indexed.addNamed _ _, ?_, ?_, h.flags.mono (.refl g) ?_,
    h.indexed.nonempty_addNamed h.nonempty⟩
  · rw [h.indexed.namedNodes_addNamed, if_neg htyped.symm]
    exact h.typed
  · rw [h.indexed.namedNodes_addNamed, if_neg htagged.symm]
    exact h.tagged
  · rw [h.indexed.namedNodes_addNamed, if_neg hflags.symm]

theorem addTypedUnit (h : g.HoldsCommits typed tagged flags) (unit : NodeId) :
    (g.addNamed TypedRecorder.unitListName unit).HoldsCommits (typed ++ [unit]) tagged flags := by
  refine ⟨h.indexed.addNamed _ _, ?_, ?_, h.flags.mono (.refl g) ?_,
    h.indexed.nonempty_addNamed h.nonempty⟩
  · rw [h.indexed.namedNodes_addNamed, if_pos rfl, Array.toList_push, h.typed]
  · rw [h.indexed.namedNodes_addNamed, if_neg (by decide), h.tagged]
  · rw [h.indexed.namedNodes_addNamed, if_neg (by decide)]

theorem addTaggedUnit (h : g.HoldsCommits typed tagged flags) (unit : NodeId) :
    (g.addNamed TaggedRecorder.unitListName unit).HoldsCommits typed (tagged ++ [unit]) flags := by
  refine ⟨h.indexed.addNamed _ _, ?_, ?_, h.flags.mono (.refl g) ?_,
    h.indexed.nonempty_addNamed h.nonempty⟩
  · rw [h.indexed.namedNodes_addNamed, if_neg (by decide), h.typed]
  · rw [h.indexed.namedNodes_addNamed, if_pos rfl, Array.toList_push, h.tagged]
  · rw [h.indexed.namedNodes_addNamed, if_neg (by decide)]

theorem addFlag (h : g.HoldsCommits typed tagged flags) (flag : ModuleFlag) :
    (g.addFlag flag).2.HoldsCommits typed tagged (flags ++ [flag]) := by
  refine ⟨h.indexed.addFlag flag, ?_, ?_, h.flags.addFlag h.indexed flag, ?_⟩
  · rw [h.indexed.namedNodes_addFlag_of_ne _ (by decide)]
    exact h.typed
  · rw [h.indexed.namedNodes_addFlag_of_ne _ (by decide)]
    exact h.tagged
  · have hadd := h.of_named_eq (g.grows_add (.tuple flag.operands)) (g.named_add _)
    rw [addFlag_eq]
    split
    · exact hadd.nonempty
    · exact hadd.indexed.nonempty_addNamed hadd.nonempty

/-- A recorder that is finalized commits its unit and asks for its flags. -/
theorem finalize {m : Module} (h : m.graph.HoldsCommits typed tagged flags) (r : Recorder) :
    (r.finalize m).1.graph.HoldsCommits (typed ++ r.typedUnit?.toList)
      (tagged ++ r.taggedUnit?.toList) (flags ++ r.flags) := by
  cases r with
  | off =>
      simp only [Recorder.typedUnit?, Recorder.taggedUnit?, Recorder.flags, Option.toList_none,
        List.append_nil]
      exact h
  | typed t =>
      have hflags : (Recorder.typed t).flags =
          [TypedRecorder.dwarfVersion] ++ [TypedRecorder.debugInfoVersion] := rfl
      rw [Recorder.fst_finalize_typed, TypedRecorder.fst_finalize, hflags, ← List.append_assoc,
        Recorder.taggedUnit?, Option.toList_none, List.append_nil]
      dsimp only
      rw [TypedRecorder.finalGraph]
      exact ((h.addTypedUnit t.unit).addFlag TypedRecorder.dwarfVersion).addFlag
        TypedRecorder.debugInfoVersion
  | tagged t =>
      have hflags : (Recorder.tagged t).flags = [TaggedRecorder.debugInfoVersion] := rfl
      rw [Recorder.fst_finalize_tagged, TaggedRecorder.fst_finalize, hflags,
        Recorder.typedUnit?, Option.toList_none, List.append_nil]
      dsimp only
      rw [TaggedRecorder.finalGraph]
      exact (h.addTaggedUnit t.unit).addFlag TaggedRecorder.debugInfoVersion

end HoldsCommits

end Graph

/-! ## Commands -/

namespace Session

variable {s s' : Session} {command : Command} {answer : Answer} {c : Commits} {ledger : Ledger}

/-- A command adds a node to a named list, asks for a flag, finalizes a recorder, or leaves
the named lists as they are and commits nothing. -/
theorem Performs.named_cases (h : s.Performs command answer s') :
    (∃ name node, command = .edit (.addNamed name node) ∧
      s'.module.graph = s.module.graph.addNamed name node) ∨
    (∃ flag, command = .addFlag flag ∧ s'.module.graph = (s.module.graph.addFlag flag).2) ∨
    (∃ n slot, command = .recorder n .finalize ∧ s.recorders[n]? = some slot ∧
      s'.recorders = s.recorders ∧ s'.module = (slot.recorder.finalize s.module).1) ∨
    (s'.module.graph.named = s.module.graph.named ∧ ∀ c, s.commitsAfter c command = c) := by
  cases h with
  | edit edit hedit =>
      cases Graph.performs_of_ok hedit with
      | addNamed name node => exact .inl ⟨name, node, rfl, rfl⟩
      | add node => exact .inr (.inr (.inr ⟨Graph.named_add _ _, fun _ => rfl⟩))
      | newList => exact .inr (.inr (.inr ⟨rfl, fun _ => rfl⟩))
      | pushToList node hlist => exact .inr (.inr (.inr ⟨rfl, fun _ => rfl⟩))
  | addFlag flag => exact .inr (.inl ⟨flag, rfl, rfl⟩)
  | finalize hslot => exact .inr (.inr (.inl ⟨_, _, rfl, hslot, rfl, rfl⟩))
  | createRecorder choice settings path hcreate =>
      exact .inr (.inr (.inr ⟨Recorder.named_create hcreate, fun _ => rfl⟩))
  | markSubprogram function name line hslot hmark =>
      exact .inr (.inr (.inr ⟨Recorder.named_markSubprogram hmark, fun _ => rfl⟩))
  | markLocation line hslot hc hmark =>
      exact .inr (.inr (.inr ⟨Recorder.named_markLocation hmark, fun _ => rfl⟩))
  | addSubprogram name linkageName line hslot hexposed hadd =>
      exact .inr (.inr (.inr ⟨Recorder.named_addSubprogram? hadd, fun _ => rfl⟩))
  | addLocation line hslot hexposed hadd =>
      exact .inr (.inr (.inr ⟨Recorder.named_addLocation? hadd, fun _ => rfl⟩))
  | _ => exact .inr (.inr (.inr ⟨rfl, fun _ => rfl⟩))

/-- A recorder keeps its unit. -/
theorem Performs.exists_typedUnit? (h : s.Performs command answer s') {n : Nat} {r : Recorder}
    (hr : s.HasRecorder n r) :
    ∃ r', s'.HasRecorder n r' ∧ r'.typedUnit? = r.typedUnit? := by
  obtain ⟨r', hr', hleads, -⟩ := h.exists_leadsTo hr
  exact ⟨r', hr', Recorder.isOwn_typedUnit?.kept hleads⟩

/-- The named lists hold what was committed, by recorders that are still there. -/
structure HoldsCommits (s : Session) (c : Commits) : Prop where
  lists : s.module.graph.HoldsCommits c.typedUnits c.taggedUnits c.flags
  finalized : ∀ call ∈ c.finalized, ∃ r, s.HasRecorder call.1 r ∧
    r.typedUnit? = call.2.typedUnit?

namespace HoldsCommits

theorem start (workingDirectory : List UInt8) (name : String) :
    (Session.start workingDirectory name).HoldsCommits {} :=
  ⟨.empty, fun _ hcall => absurd hcall List.not_mem_nil⟩

private theorem finalized_kept (h : s.HoldsCommits c) (hperform : s.Performs command answer s') :
    ∀ call ∈ c.finalized, ∃ r, s'.HasRecorder call.1 r ∧ r.typedUnit? = call.2.typedUnit? := by
  intro call hcall
  obtain ⟨r, hr, hunit⟩ := h.finalized call hcall
  obtain ⟨r', hr', hunit'⟩ := hperform.exists_typedUnit? hr
  exact ⟨r', hr', hunit'.trans hunit⟩

theorem step (h : s.HoldsCommits c) (hcommand : command.leavesCommits = true)
    (hperform : s.Performs command answer s') : s'.HoldsCommits (s.commitsAfter c command) := by
  have hkept := h.finalized_kept hperform
  rcases hperform.named_cases with ⟨name, node, rfl, hgraph⟩ | ⟨flag, rfl, hgraph⟩ |
    ⟨n, slot, rfl, hslot, -, hmodule⟩ | ⟨hnamed, hsame⟩
  · obtain ⟨htyped, htagged, hflags⟩ := Command.not_mem_of_leavesCommits hcommand
    refine ⟨?_, hkept⟩
    rw [hgraph]
    exact h.lists.addNamed htyped htagged hflags node
  · refine ⟨?_, hkept⟩
    rw [hgraph]
    exact h.lists.addFlag flag
  · rw [commitsAfter, hslot, Option.elim_some]
    refine ⟨?_, ?_⟩
    · rw [hmodule, Commits.typedUnits_finalize, Commits.taggedUnits_finalize]
      exact h.lists.finalize slot.recorder
    · intro call hcall
      rcases List.mem_append.mp hcall with hold | hnew
      · exact hkept call hold
      · rw [List.mem_singleton.mp hnew]
        exact hperform.exists_typedUnit? ⟨slot, hslot, rfl⟩
  · rw [hsame]
    exact ⟨h.lists.of_named_eq hperform.grows hnamed, hkept⟩

theorem run {commands : List Command}
    (hcommands : ∀ command ∈ commands, command.leavesCommits = true)
    (workingDirectory : List UInt8) (name : String) :
    ((Session.start workingDirectory name).run commands).2.HoldsCommits
      ((Session.start workingDirectory name).follow commitsAfter {} commands) :=
  invariant_of_meets (P := fun _ _ command => command.leavesCommits)
    (fun h hcommand hperform => h.step hcommand hperform) (.start workingDirectory name)
    (meets_of_forall hcommands)

end HoldsCommits

/-! ## Families -/

/-- The families are those of recorders that there are, and each has its own typed unit. -/
structure Families (s : Session) (ledger : Ledger) : Prop where
  rooted : s.Rooted
  size : ledger.entries.size = s.recorders.size
  bounded : ∀ n family, ledger.family? n = some family → family < s.recorders.size
  units : TellsApart Recorder.typedUnit? s ledger

namespace Families

theorem start (workingDirectory : List UInt8) (name : String) :
    (Session.start workingDirectory name).Families {} := by
  refine ⟨.start workingDirectory name, rfl, ?_, ?_⟩
  · intro n family hfamily
    cases hfamily
  · rintro n n' r r' unit ⟨slot, hslot, -⟩
    cases hslot

theorem step (h : s.Families ledger) (hperform : s.Performs command answer s') :
    s'.Families (s.ledgerAfter ledger command) where
  rooted := h.rooted.step hperform
  size := hperform.size_ledgerAfter h.size
  bounded := hperform.bounded_ledgerAfter h.size h.bounded
  units := h.units.step Recorder.isOwn_typedUnit? h.rooted h.size h.bounded hperform

theorem run (workingDirectory : List UInt8) (name : String) (commands : List Command) :
    ((Session.start workingDirectory name).run commands).2.Families
      ((Session.start workingDirectory name).follow ledgerAfter {} commands) :=
  invariant_of_meets (P := fun _ _ _ => true) (fun h _ hperform => h.step hperform)
    (.start workingDirectory name) (meets_of_forall (Q := fun _ => true) fun _ _ => rfl)

end Families

/-! ## Runs -/

theorem HasRecorder.exists_typed {n : Nat} {r : Recorder} {unit : NodeId} (h : s.HasRecorder n r)
    (hunit : r.typedUnit? = some unit) : ∃ t, s.HasRecorder n (.typed t) ∧ t.unit = unit := by
  cases r with
  | off => cases hunit
  | typed t => exact ⟨t, h, Option.some.inj hunit⟩
  | tagged t => cases hunit

/-- The unit of a typed recorder is committed exactly if one of its family was finalized. -/
theorem HoldsCommits.mem_typedUnits_iff (h : s.HoldsCommits c) (hfamilies : s.Families ledger)
    {n : Nat} {t : TypedRecorder} (ht : s.HasRecorder n (.typed t)) :
    t.unit ∈ c.typedUnits ↔
      ∃ call ∈ c.finalized, ledger.family? call.1 = ledger.family? n := by
  have hunits {call : Nat × Recorder} (hcall : call ∈ c.finalized) :
      call.2.typedUnit? = some t.unit ↔ ledger.family? call.1 = ledger.family? n := by
    obtain ⟨r, hr, hunit⟩ := h.finalized call hcall
    rw [← hunit]
    exact hfamilies.units n call.1 (.typed t) r t.unit ht hr rfl
  rw [Commits.typedUnits, List.mem_filterMap]
  exact exists_congr fun call => and_congr_right hunits

/-- If no command asks for a flag, recorders do. -/
theorem fromRecorders_follow {commands : List Command}
    (hcommands : ∀ command ∈ commands, command.asksForFlag = false) :
    (s.follow commitsAfter {} commands).FromRecorders := by
  refine invariant_of_meets (P := fun _ _ command => !command.asksForFlag)
    (I := fun _ => Commits.FromRecorders) ?_ ?_
    (meets_of_forall (Q := fun command => !command.asksForFlag) ?_)
  · intro s s' c command answer h hcommand hperform
    rcases hperform.named_cases with ⟨name, node, rfl, -⟩ | ⟨flag, rfl, -⟩ |
      ⟨n, slot, rfl, hslot, -, -⟩ | ⟨-, hsame⟩
    · exact h
    · cases hcommand
    · rw [commitsAfter, hslot, Option.elim_some]
      intro flag hflag
      rcases List.mem_append.mp hflag with hold | hnew
      · obtain ⟨call, hcall, hasked⟩ := h flag hold
        exact ⟨call, List.mem_append_left _ hcall, hasked⟩
      · exact ⟨(n, slot.recorder), List.mem_append_right _ (List.mem_singleton.mpr rfl), hnew⟩
    · rw [hsame]
      exact h
  · exact fun flag hflag => absurd hflag List.not_mem_nil
  · intro command hcommand
    rw [hcommands command hcommand]
    rfl

/-- Without typed recorders no list of typed units is made, and no other flag is asked for
than that of tagged recorders. -/
theorem HoldsCommits.of_no_typed (h : s.HoldsCommits c)
    (htyped : ∀ n t, ¬ s.HasRecorder n (.typed t))
    (hflags : c.FromRecorders) :
    TypedRecorder.unitListName ∉ s.module.graph.named.keys ∧
      ∀ flag ∈ c.flags, flag = TaggedRecorder.debugInfoVersion := by
  have hnone {call : Nat × Recorder} (hcall : call ∈ c.finalized) : call.2.typedUnit? = none := by
    obtain ⟨r, hr, hunit⟩ := h.finalized call hcall
    rw [← hunit, Option.eq_none_iff_forall_ne_some]
    intro unit hunit
    obtain ⟨t, ht, -⟩ := hr.exists_typed hunit
    exact htyped call.1 t ht
  refine ⟨?_, ?_⟩
  · intro hkey
    have hempty : c.typedUnits = [] := List.filterMap_eq_nil_iff.mpr fun _ hcall => hnone hcall
    rw [← h.lists.typed, Array.toList_eq_nil_iff] at hempty
    exact h.lists.nonempty _ hkey hempty
  · intro flag hflag
    obtain ⟨⟨n, r⟩, hcall, hasked⟩ := hflags flag hflag
    cases r with
    | off => cases hasked
    | typed t => cases hnone hcall
    | tagged t => exact List.mem_singleton.mp hasked

/-- Whatever recorders are created and told, in whatever order, and however often each is
finalized: the lists of units hold those of the recorders that were finalized, in order, and
the list of flags has each flag that was asked for once, where it was first asked for.  The
unit of a typed recorder is in its list exactly if the recorder or one that shares the unit
was finalized.  Without typed recorders and without flags of its own a run makes no list of
typed units and no flag of the DWARF version. -/
theorem named_lists_hold_commits (workingDirectory : List UInt8) (name : String)
    (commands : List Command) (hcommands : ∀ command ∈ commands, command.leavesCommits = true)
    (hrun : ((Session.start workingDirectory name).run commands).2 = s)
    (hcommits : (Session.start workingDirectory name).follow commitsAfter {} commands = c)
    (hledger : (Session.start workingDirectory name).follow ledgerAfter {} commands = ledger) :
    let g := s.module.graph
    (g.namedNodes "llvm.dbg.cu").toList = c.typedUnits ∧
    (g.namedNodes "ori.llvm.dbg.cu").toList = c.taggedUnits ∧
    (g.namedNodes "llvm.module.flags").toList.Nodup ∧
    (g.namedNodes "llvm.module.flags").toList.map g.node? =
      c.flags.eraseDups.map (fun flag => some (.tuple flag.operands)) ∧
    (∀ n t, s.HasRecorder n (.typed t) → (t.unit ∈ g.namedNodes "llvm.dbg.cu" ↔
      ∃ call ∈ c.finalized, ledger.family? call.1 = ledger.family? n)) ∧
    ((∀ n t, ¬ s.HasRecorder n (.typed t)) → (∀ flag, .addFlag flag ∉ commands) →
      "llvm.dbg.cu" ∉ g.named.keys ∧ ∀ id ∈ g.namedNodes "llvm.module.flags", ∀ flag : ModuleFlag,
        g.node? id = some (.tuple flag.operands) → flag.key ≠ "Dwarf Version") := by
  subst hrun hcommits hledger
  intro g
  have hcommits := HoldsCommits.run hcommands workingDirectory name
  have hfamilies := Families.run workingDirectory name commands
  refine ⟨hcommits.lists.typed, hcommits.lists.tagged, hcommits.lists.flags.nodup,
    hcommits.lists.flags.nodes, ?_, ?_⟩
  · intro n t ht
    rw [← hcommits.mem_typedUnits_iff hfamilies ht, ← hcommits.lists.typed, Array.mem_toList_iff]
    rfl
  · intro htyped hflags
    have hasked : ∀ command ∈ commands, command.asksForFlag = false := by
      intro command hcommand
      cases command with
      | addFlag flag => exact absurd hcommand (hflags flag)
      | _ => rfl
    obtain ⟨hkey, hall⟩ := hcommits.of_no_typed htyped (fromRecorders_follow hasked)
    refine ⟨hkey, ?_⟩
    intro id hid flag hnode
    have hflag := (hcommits.lists.flags.mem_iff hcommits.lists.indexed hnode).mp hid
    rw [hall flag hflag]
    decide

/-- A typed recorder whose clone is finalized twice, with a tagged recorder and a flag of the
run's own in between. -/
def interleavedRun : List Command :=
  [.createRecorder (.fixed .modern) {} [0x2F, 0x61], .recorder 0 .clone,
    .createRecorder (.fixed .legacy) {} [0x2F, 0x61], .recorder 1 .finalize,
    .recorder 2 .finalize, .addFlag ⟨.error, "Wide", 1⟩, .recorder 1 .finalize]

/-- A tagged recorder, which is finalized. -/
def taggedRun : List Command :=
  [.createRecorder (.fixed .legacy) {} [0x2F, 0x61], .recorder 0 .finalize]

/-- The unit is listed for the clone's sake, and no flag is listed twice.  The tagged recorder
by itself makes no list of typed units. -/
theorem named_lists_hold_commits_of_clone :
    (∀ command ∈ interleavedRun, command.leavesCommits = true) ∧
    (∃ s c t, ((Session.start [] "m").run interleavedRun).2 = s ∧
      (Session.start [] "m").follow commitsAfter {} interleavedRun = c ∧
      s.HasRecorder 0 (.typed t) ∧ c.finalized.map Prod.fst = [1, 2, 1] ∧
      t.unit ∈ s.module.graph.namedNodes "llvm.dbg.cu" ∧
      (s.module.graph.namedNodes "llvm.module.flags").toList.map s.module.graph.node? =
        ([⟨.warning, "Dwarf Version", 4⟩, ⟨.warning, "Debug Info Version", 3⟩,
          ⟨.warning, "Debug Info Version", 1⟩, ⟨.error, "Wide", 1⟩] : List ModuleFlag).map
            fun flag => some (.tuple flag.operands)) ∧
    (∀ command ∈ taggedRun, command.leavesCommits = true) ∧
    "llvm.dbg.cu" ∉ ((Session.start [] "m").run taggedRun).2.module.graph.named.keys := by
  have hcommands : ∀ command ∈ interleavedRun, command.leavesCommits = true := by decide
  have hcommands' : ∀ command ∈ taggedRun, command.leavesCommits = true := by decide
  obtain ⟨-, -, -, hflags, hunits, -⟩ :=
    named_lists_hold_commits [] "m" interleavedRun hcommands rfl rfl rfl
  obtain ⟨-, -, -, -, -, hkeys⟩ := named_lists_hold_commits [] "m" taggedRun hcommands' rfl rfl rfl
  refine ⟨hcommands, ?_, hcommands', ?_⟩
  · have hfirst : (((Session.start [] "m").run interleavedRun).2.recorders[0]?.bind
        (·.recorder.typedUnit?)).isSome = true := by decide +kernel
    obtain ⟨unit, hunit⟩ := Option.isSome_iff_exists.mp hfirst
    obtain ⟨slot, hslot, hunit⟩ := Option.bind_eq_some_iff.mp hunit
    obtain ⟨t, ht, -⟩ := HasRecorder.exists_typed ⟨slot, hslot, rfl⟩ hunit
    have hcalls : ((Session.start [] "m").follow commitsAfter {} interleavedRun).finalized.map
        Prod.fst = [1, 2, 1] := by decide +kernel
    refine ⟨_, _, t, rfl, rfl, ht, hcalls, (hunits 0 t ht).mpr ?_, ?_⟩
    · have hone : 1 ∈ ((Session.start [] "m").follow commitsAfter {} interleavedRun).finalized.map
          Prod.fst := by
        rw [hcalls]
        exact List.mem_cons_self
      obtain ⟨call, hcall, hnumber⟩ := List.mem_map.mp hone
      refine ⟨call, hcall, ?_⟩
      rw [hnumber]
      decide +kernel
    · have hasked : ((Session.start [] "m").follow commitsAfter {} interleavedRun).flags.eraseDups =
          [⟨.warning, "Dwarf Version", 4⟩, ⟨.warning, "Debug Info Version", 3⟩,
            ⟨.warning, "Debug Info Version", 1⟩, ⟨.error, "Wide", 1⟩] := by decide +kernel
      rw [← hasked]
      exact hflags
  · have hslots : ((Session.start [] "m").run taggedRun).2.recorders.all
        (·.recorder.typedUnit?.isNone) = true := by decide +kernel
    refine (hkeys ?_ (by simp [taggedRun])).1
    rintro n t ⟨slot, hslot, ht⟩
    have hnone := Array.all_eq_true'.mp hslots slot (Array.mem_of_getElem? hslot)
    rw [ht] at hnone
    cases hnone

end Session

end DebugMetadata

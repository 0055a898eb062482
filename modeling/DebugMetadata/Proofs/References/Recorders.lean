import DebugMetadata.Proofs.References.Building
import DebugMetadata.Proofs.Scopes.Typed

/-!
# Recorders and what they refer to

Every call of a recorder builds, if the recorder is rooted and the subprogram it is at holds
no list.  A subprogram holds none, so this is so whichever calls came before.
-/

namespace DebugMetadata

variable {functions : Nat} {g g' : Graph} {scope : NodeId}

/-! ## Typed recorders -/

namespace TypedRecorder

variable {t : TypedRecorder}

theorem references_unitNode (settings : Settings) (file : NodeId) :
    (Node.debug (unitNode settings file) true).references = [.node file] := rfl

theorem references_typeNode (types : NodeId) :
    (Node.debug (typeNode types) false).references = [.node types] := rfl

theorem references_subprogramNode (t : TypedRecorder) (name linkageName : String) (line : Nat)
    (type locals : NodeId) :
    (Node.debug (t.subprogramNode name linkageName line type locals) true).references =
      [.node t.file, .node t.file, .node type, .node locals, .node t.unit] := rfl

theorem references_locationNode (line : Nat) (scope : NodeId) :
    (Node.debug (locationNode line scope) false).references = [.node scope] := rfl

theorem Rooted.isPlain_file (h : t.Rooted g) : g.IsPlain t.file :=
  ⟨_, h.file, Node.isPlain_debug _ _⟩

theorem Rooted.isPlain_unit (h : t.Rooted g) : g.IsPlain t.unit := by
  obtain ⟨settings, -, hunit⟩ := h.unit
  exact ⟨_, hunit, Node.isPlain_debug _ _⟩

theorem builds_create (hg : g.Indexed) (settings : Settings) (source : SourceFile) :
    g.Builds functions (create settings source g).2 := by
  simp only [create, Graph.addDebug_eq_add]
  have hfile : Graph.Builds.Plainly functions g g (g.add (.debug (fileNode source) false)) :=
    Graph.Builds.refl.plainly hg (Node.isPlain_debug _ _)
      fun ref href => absurd href List.not_mem_nil
  generalize g.add (.debug (fileNode source) false) = file at hfile ⊢
  refine hfile.builds.add ?_
  rw [references_unitNode, List.forall_mem_singleton]
  exact hfile.isPlain

theorem plainly_addType (h : g.Builds functions g') (hg' : g'.Indexed) :
    Graph.Builds.Plainly functions g g' (addType g') := by
  simp only [addType, Graph.addDebug_eq_add]
  have htypes : Graph.Builds.Plainly functions g g' (g'.addTuple []) := h.plainly_leaf hg' rfl
  generalize g'.addTuple [] = types at htypes ⊢
  refine .after htypes.grows (htypes.builds.plainly htypes.indexed (Node.isPlain_debug _ _) ?_)
  rw [references_typeNode, List.forall_mem_singleton]
  exact htypes.isPlain

theorem builds_addSubprogram (hg : g.Indexed) (h : t.Rooted g) (name linkageName : String)
    (line : Nat) : g.Builds functions (t.addSubprogram name linkageName line g).2.2 := by
  simp only [addSubprogram, Graph.addDebug_eq_add]
  have htype : Graph.Builds.Plainly functions g g (addType g) := plainly_addType .refl hg
  generalize addType g = type at htype ⊢
  have hempty : Graph.Builds.Plainly functions g type.2 (type.2.addTuple []) :=
    htype.builds.plainly_leaf htype.indexed rfl
  generalize type.2.addTuple [] = empty at hempty ⊢
  have hroots := h.mono (htype.grows.trans hempty.grows)
  refine hempty.builds.add ?_
  rw [references_subprogramNode]
  simp only [List.forall_mem_cons]
  exact ⟨hroots.isPlain_file, hroots.isPlain_file, htype.isPlain.mono hempty.grows, hempty.isPlain,
    hroots.isPlain_unit, List.forall_mem_nil _⟩

theorem builds_location (hscope : g.IsPlain scope) (line : Nat) :
    g.Builds functions (g.addDebug (locationNode line scope) false).2 := by
  rw [Graph.addDebug_eq_add]
  refine Graph.Builds.refl.add ?_
  rw [references_locationNode, List.forall_mem_singleton]
  exact hscope

theorem builds_finalGraph (hg : g.Indexed) (h : t.Rooted g) :
    g.Builds functions (t.finalGraph g) := by
  have hunit : g.Builds functions (g.addNamed unitListName t.unit) :=
    Graph.Builds.refl.addNamed unitListName h.isPlain_unit.lt
  have hindexed := (g.grows_addNamed unitListName t.unit).indexed hg
  exact (hunit.addFlag hindexed dwarfVersion).addFlag (hindexed.addFlag dwarfVersion)
    debugInfoVersion

end TypedRecorder

/-! ## Tagged recorders -/

namespace TaggedRecorder

variable {t : TaggedRecorder} {m : Module}

theorem references_fileOperands (pair : NodeId) :
    (Node.tuple (fileOperands pair)).references = [.node pair] := rfl

theorem references_unitOperands (settings : Settings) (pair empty : NodeId)
    (subprograms : ListId) :
    (Node.tuple (unitOperands settings pair empty subprograms)).references =
      [.node pair, .node empty, .node empty, .list subprograms, .node empty, .node empty] := rfl

theorem references_typeOperands (types : NodeId) :
    (Node.tuple (typeOperands types)).references = [.node types] := rfl

theorem references_subprogramOperands (t : TaggedRecorder) (pair context : NodeId)
    (name linkageName : String) (line : Nat) (type locals : NodeId)
    (function : Option FunctionId) :
    (Node.tuple (t.subprogramOperands pair context name linkageName line type locals
      function)).references =
      [.node pair, .node context, .node type] ++ (function.map .function).toList ++
        [.node locals] := by
  cases function with
  | none => rfl
  | some function => rfl

theorem references_locationOperands (line : Nat) (scope : NodeId) :
    (Node.tuple (locationOperands line scope)).references = [.node scope] := rfl

theorem isPlain_subprogram (t : TaggedRecorder) (pair context : NodeId)
    (name linkageName : String) (line : Nat) (type locals : NodeId)
    (function : Option FunctionId) :
    (Node.tuple (t.subprogramOperands pair context name linkageName line type locals
      function)).IsPlain := by
  intro list hlist
  rw [references_subprogramOperands] at hlist
  cases function with
  | none => simp at hlist
  | some function => simp at hlist

theorem isPlain_fileOperands (pair : NodeId) : (Node.tuple (fileOperands pair)).IsPlain := by
  intro list hlist
  cases List.mem_singleton.mp hlist

theorem isPlain_typeOperands (types : NodeId) : (Node.tuple (typeOperands types)).IsPlain := by
  intro list hlist
  cases List.mem_singleton.mp hlist

/-! What is asked for again and again refers to nothing that holds a list. -/

theorem plainly_addPair (h : g.Builds functions g') (hg' : g'.Indexed) (source : SourceFile) :
    Graph.Builds.Plainly functions g g' (addPair source g') :=
  h.plainly_leaf hg' rfl

theorem plainly_addFile (h : g.Builds functions g') (hg' : g'.Indexed) (source : SourceFile) :
    Graph.Builds.Plainly functions g g' (addFile source g') := by
  simp only [addFile, Graph.addTuple_eq_add]
  have hpair := plainly_addPair h hg' source
  generalize addPair source g' = pair at hpair ⊢
  refine .after hpair.grows (hpair.builds.plainly hpair.indexed (isPlain_fileOperands _) ?_)
  rw [references_fileOperands, List.forall_mem_singleton]
  exact hpair.isPlain

theorem plainly_addType (h : g.Builds functions g') (hg' : g'.Indexed) :
    Graph.Builds.Plainly functions g g' (addType g') := by
  simp only [addType]
  have htypes : Graph.Builds.Plainly functions g g' (g'.addTuple typesOperands) :=
    h.plainly_leaf hg' rfl
  generalize g'.addTuple typesOperands = types at htypes ⊢
  refine .after htypes.grows (htypes.builds.plainly htypes.indexed (isPlain_typeOperands _) ?_)
  rw [references_typeOperands, List.forall_mem_singleton]
  exact htypes.isPlain

/-- The unit is the one node that refers to something that it holds a list of. -/
theorem builds_create (hg : g.Indexed) (settings : Settings) (source : SourceFile) :
    g.Builds functions (create settings source g).2 := by
  simp only [create]
  have hfile : Graph.Builds.Plainly functions g g (addFile source g) :=
    plainly_addFile .refl hg source
  generalize addFile source g = file at hfile ⊢
  have hpair := plainly_addPair hfile.builds.newList hfile.indexed.newList source
  have hlist : file.2.newList.1.index < file.2.newList.2.lists.size := by
    change file.2.lists.size < (file.2.lists.push #[]).size
    rw [Array.size_push]
    exact Nat.lt_succ_self _
  have hlist := Nat.lt_of_lt_of_le hlist hpair.grows.lists.size_le
  generalize addPair source file.2.newList.2 = pair at hpair hlist ⊢
  have hempty : Graph.Builds.Plainly functions g pair.2 (pair.2.addTuple emptyOperands) :=
    hpair.builds.plainly_leaf hpair.indexed rfl
  have hlist := Nat.lt_of_lt_of_le hlist hempty.grows.lists.size_le
  generalize pair.2.addTuple emptyOperands = empty at hempty hlist ⊢
  rw [Graph.addTuple_eq_add]
  refine hempty.builds.add ?_
  rw [references_unitOperands]
  simp only [List.forall_mem_cons]
  exact ⟨hpair.isPlain.mono hempty.grows, hempty.isPlain, hempty.isPlain, hlist, hempty.isPlain,
    hempty.isPlain, List.forall_mem_nil _⟩

theorem builds_addSubprogram (hg : m.graph.Indexed) (hm : m.Named) (t : TaggedRecorder)
    (name linkageName : String) (line : Nat) :
    m.graph.Builds m.functions.size (t.addSubprogram name linkageName line m).2.2.graph := by
  simp only [addSubprogram]
  have htype : Graph.Builds.Plainly m.functions.size m.graph m.graph (addType m.graph) :=
    plainly_addType .refl hg
  generalize addType m.graph = type at htype ⊢
  have hempty : Graph.Builds.Plainly m.functions.size m.graph type.2
      (type.2.addTuple emptyOperands) :=
    htype.builds.plainly_leaf htype.indexed rfl
  generalize type.2.addTuple emptyOperands = empty at hempty ⊢
  have hfile := plainly_addFile hempty.builds hempty.indexed t.source
  generalize addFile t.source empty.2 = file at hfile ⊢
  have hpair := plainly_addPair hfile.builds hfile.indexed t.source
  generalize addPair t.source file.2 = pair at hpair ⊢
  have hfunction : ∀ function, m.findFunction? linkageName = some function →
      function.index < m.functions.size := by
    intro function hfound
    have hname := (hm linkageName function).mp hfound
    obtain ⟨hlt, -⟩ := List.getElem?_eq_some_iff.mp hname
    rwa [Module.length_names] at hlt
  have hsubprogram : Graph.Builds.Plainly m.functions.size m.graph pair.2
      (pair.2.add (.tuple (t.subprogramOperands pair.1 file.1 name linkageName line type.1 empty.1
        (m.findFunction? linkageName)))) := by
    refine hpair.builds.plainly hpair.indexed (t.isPlain_subprogram _ _ _ _ _ _ _ _) ?_
    have hlater := hfile.grows.trans hpair.grows
    rw [references_subprogramOperands]
    simp only [List.forall_mem_append, List.forall_mem_cons]
    refine ⟨⟨⟨hpair.isPlain, hfile.isPlain.mono hpair.grows,
      htype.isPlain.mono (hempty.grows.trans hlater), List.forall_mem_nil _⟩, ?_⟩,
      hempty.isPlain.mono hlater, List.forall_mem_nil _⟩
    intro ref href
    obtain ⟨function, hfound, rfl⟩ := Option.map_eq_some_iff.mp (Option.mem_toList.mp href)
    exact hfunction function hfound
  exact hsubprogram.builds.pushToList _ hsubprogram.isPlain

theorem builds_location (hscope : g.IsPlain scope) (line : Nat) :
    g.Builds functions (g.addTuple (locationOperands line scope)).2 := by
  rw [Graph.addTuple_eq_add]
  refine Graph.Builds.refl.add ?_
  rw [references_locationOperands, List.forall_mem_singleton]
  exact hscope

theorem builds_finalGraph (hg : g.Indexed) (h : t.Rooted g) :
    g.Builds functions (t.finalGraph g) := by
  obtain ⟨settings, pair, empty, -, -, -, hunit⟩ := h.unit
  have hnamed : g.Builds functions (g.addNamed unitListName t.unit) :=
    Graph.Builds.refl.addNamed unitListName (Graph.lt_size_of_node? hunit)
  exact hnamed.addFlag ((g.grows_addNamed unitListName t.unit).indexed hg) debugInfoVersion

end TaggedRecorder

/-! ## All recorders -/

namespace Recorder

variable {r r' : Recorder} {m m' : Module} {c c' : Cursor} {name linkageName : String}
  {line : Nat} {id : NodeId} {event : Option Event}

/-- The subprogram that a recorder is at exists and holds no list. -/
def IsAtPlain (r : Recorder) (g : Graph) : Prop := ∀ id, r.active? = some id → g.IsPlain id

theorem IsAtPlain.mono {g' : Graph} (h : r.IsAtPlain g) (hgrows : g.Grows g') :
    r.IsAtPlain g' :=
  fun id hid => (h id hid).mono hgrows

theorem isAtPlain_create {schema : Option Schema} {settings : Settings}
    {workingDirectory path : List UInt8}
    (h : create schema settings workingDirectory path m = .ok (r, m', event)) :
    r.IsAtPlain m'.graph := by
  intro id hid
  rcases create_cases h with ⟨-, hr, -⟩ | ⟨source, -, -, hr, -⟩ | ⟨source, -, -, hr, -⟩
  · rw [hr] at hid
    cases hid
  · simp only [hr, TypedRecorder.create, active?] at hid
    cases hid
  · simp only [hr, TaggedRecorder.create, active?] at hid
    cases hid

theorem isAtPlain_addSubprogram? (hg : m.graph.Indexed)
    (h : r.addSubprogram? name linkageName line m = some (id, r', m')) :
    r'.active? = some id ∧ m'.graph.IsPlain id := by
  rcases addSubprogram?_cases h with ⟨t, -, hid, hr', hm'⟩ | ⟨t, -, hid, hr', hm'⟩
  · obtain ⟨type, locals, hnode⟩ := t.node?_addSubprogram name linkageName line m.graph
    rw [hr', active?, t.recorder_addSubprogram name linkageName line m.graph, hid, hm']
    exact ⟨rfl, _, hnode, Node.isPlain_debug _ _⟩
  · obtain ⟨pair, context, type, locals, hnode⟩ :=
      TaggedRecorder.node?_addSubprogram hg t name linkageName line
    rw [hr', active?, t.recorder_addSubprogram name linkageName line m, hid, hm']
    exact ⟨rfl, _, hnode, t.isPlain_subprogram _ _ _ _ _ _ _ _⟩

theorem isAtPlain_markSubprogram (hg : m.graph.Indexed) {function : FunctionId}
    (h : r.markSubprogram m function name line = .ok (r', m', event)) :
    r'.IsAtPlain m'.graph := by
  intro id hid
  rcases markSubprogram_cases h with
    ⟨-, hr', -⟩ | ⟨t, f, -, -, hr', hm', -⟩ | ⟨t, f, -, -, hr', hm', -⟩
  · rw [hr'] at hid
    cases hid
  · obtain ⟨type, locals, hnode⟩ := t.node?_addSubprogram name f.name line m.graph
    rw [hr', active?, t.recorder_addSubprogram name f.name line m.graph] at hid
    rw [hm', ← Option.some.inj hid]
    exact ⟨_, hnode, Node.isPlain_debug _ _⟩
  · obtain ⟨pair, context, type, locals, hnode⟩ :=
      TaggedRecorder.node?_addSubprogram hg t name f.name line
    rw [hr', active?, t.recorder_addSubprogram name f.name line m] at hid
    rw [hm', ← Option.some.inj hid]
    exact ⟨_, hnode, t.isPlain_subprogram _ _ _ _ _ _ _ _⟩

/-! What is built -/

theorem builds_create {schema : Option Schema} {settings : Settings}
    {workingDirectory path : List UInt8} (hg : m.graph.Indexed)
    (h : create schema settings workingDirectory path m = .ok (r, m', event)) :
    m.graph.Builds m.functions.size m'.graph := by
  rcases create_cases h with ⟨-, -, hm', -⟩ | ⟨source, -, -, -, hm', -⟩ | ⟨source, -, -, -, hm', -⟩
  · rw [hm']
    exact .refl
  · rw [hm']
    dsimp only
    exact TypedRecorder.builds_create hg settings source
  · rw [hm']
    dsimp only
    exact TaggedRecorder.builds_create hg settings source

theorem builds_markSubprogram {function : FunctionId} (hg : m.graph.Indexed)
    (hr : r.Rooted m.graph) (hm : m.Named)
    (h : r.markSubprogram m function name line = .ok (r', m', event)) :
    m.graph.Builds m.functions.size m'.graph := by
  rcases markSubprogram_cases h with
    ⟨-, -, hm', -⟩ | ⟨t, f, rfl, -, -, hm', -⟩ | ⟨t, f, rfl, -, -, hm', -⟩
  · rw [hm']
    exact .refl
  · rw [hm']
    exact TypedRecorder.builds_addSubprogram hg hr name f.name line
  · rw [hm']
    exact TaggedRecorder.builds_addSubprogram hg hm t name f.name line

theorem builds_addSubprogram? (hg : m.graph.Indexed) (hr : r.Rooted m.graph) (hm : m.Named)
    (h : r.addSubprogram? name linkageName line m = some (id, r', m')) :
    m.graph.Builds m.functions.size m'.graph := by
  rcases addSubprogram?_cases h with ⟨t, rfl, -, -, hm'⟩ | ⟨t, rfl, -, -, hm'⟩
  · rw [hm']
    exact TypedRecorder.builds_addSubprogram hg hr name linkageName line
  · rw [hm']
    exact TaggedRecorder.builds_addSubprogram hg hm t name linkageName line

theorem builds_markLocation (hr : r.IsAtPlain m.graph)
    (h : r.markLocation m c line = .ok (r', c', m', event)) :
    m.graph.Builds m.functions.size m'.graph := by
  rcases markLocation_cases h with ⟨-, -, -, rfl, -⟩ | ⟨t, scope, rfl, hscope, -, -, rfl, -⟩ |
    ⟨t, -, -, -, -, rfl, -⟩ | ⟨t, scope, rfl, -, hscope, -, -, -, rfl, -⟩
  · exact .refl
  · exact TypedRecorder.builds_location (hr scope hscope) line
  · exact .refl
  · exact TaggedRecorder.builds_location (hr scope hscope) line

theorem builds_addLocation? (hr : r.IsAtPlain m.graph)
    (h : r.addLocation? line m = some (.ok (id, m'))) :
    m.graph.Builds m.functions.size m'.graph := by
  rcases addLocation?_cases h with ⟨t, scope, rfl, hscope, -, rfl⟩ | ⟨t, scope, rfl, hscope, -, rfl⟩
  · exact TypedRecorder.builds_location (hr scope hscope) line
  · exact TaggedRecorder.builds_location (hr scope hscope) line

theorem builds_finalize (hg : m.graph.Indexed) (hr : r.Rooted m.graph) :
    m.graph.Builds m.functions.size (r.finalize m).1.graph := by
  cases r with
  | off => exact .refl
  | typed t =>
      rw [fst_finalize_typed, TypedRecorder.fst_finalize]
      dsimp only
      exact TypedRecorder.builds_finalGraph hg hr
  | tagged t =>
      rw [fst_finalize_tagged, TaggedRecorder.fst_finalize]
      dsimp only
      exact TaggedRecorder.builds_finalGraph hg hr

end Recorder

end DebugMetadata

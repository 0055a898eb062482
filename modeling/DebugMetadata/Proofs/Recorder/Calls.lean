import DebugMetadata.Proofs.Graph.Sharing
import DebugMetadata.Proofs.Module.Growth
import DebugMetadata.Recorder.Basic

/-!
# What recorders do to a module

Each call of a recorder as an equation, for a function and a block that exist and
a recorder that has a subprogram.  A recorder changes the metadata graph, the
attachments of functions and, if it is a tagged one, the end of a block: it
declares no function and appends no block.
-/

namespace DebugMetadata

/-! ## Typed recorders -/

namespace TypedRecorder

variable {r : TypedRecorder} {m : Module} {c : Cursor} {function : FunctionId} {f : Function}
  {name : String} {line : Nat} {scope : NodeId}

theorem grows_create (settings : Settings) (source : SourceFile) (g : Graph) :
    g.Grows (create settings source g).2 := by
  simp only [create]
  exact (g.grows_addDebug _ _).trans (Graph.grows_addDebug _ _ _)

theorem source_create (settings : Settings) (source : SourceFile) (g : Graph) :
    (create settings source g).1.source = source := by
  simp only [create]

theorem active_create (settings : Settings) (source : SourceFile) (g : Graph) :
    (create settings source g).1.active = none := by
  simp only [create]

theorem recorder_addSubprogram (r : TypedRecorder) (name linkageName : String) (line : Nat)
    (g : Graph) :
    (r.addSubprogram name linkageName line g).2.1 =
      { r with
        subprograms := r.subprograms.push (r.addSubprogram name linkageName line g).1
        active := some (r.addSubprogram name linkageName line g).1 } := by
  simp only [addSubprogram]

theorem grows_addType (g : Graph) : g.Grows (addType g).2 := by
  simp only [addType]
  exact (g.grows_addTuple _).trans (Graph.grows_addDebug _ _ _)

/-- The graph with what every subprogram refers to: its type and an empty tuple. -/
def withType (g : Graph) : Graph := ((addType g).2.addTuple []).2

theorem grows_withType (g : Graph) : g.Grows (withType g) :=
  (grows_addType g).trans (Graph.grows_addTuple _ _)

theorem addSubprogram_eq (r : TypedRecorder) (name linkageName : String) (line : Nat)
    (g : Graph) : ∃ type locals,
      (r.addSubprogram name linkageName line g).1 = ⟨(withType g).size⟩ ∧
      (r.addSubprogram name linkageName line g).2.2 =
        ((withType g).append
          (.debug (r.subprogramNode name linkageName line type locals) true)).2 := by
  refine ⟨(addType g).1, ((addType g).2.addTuple []).1, ?_, ?_⟩
  · simp only [addSubprogram, Graph.addDebug_eq_add]
    rw [Graph.add_of_isDistinct rfl]
    rfl
  · simp only [addSubprogram, Graph.addDebug_eq_add]
    rw [Graph.add_of_isDistinct rfl]
    rfl

theorem markSubprogram_eq (hf : m.function? function = some f) :
    r.markSubprogram m function name line =
      .ok ((r.addSubprogram name f.name line m.graph).2.1,
        { m with graph := (r.addSubprogram name f.name line m.graph).2.2 }.attachToFunction
          function subprogramKey (r.addSubprogram name f.name line m.graph).1,
        .markedSubprogram name f.name line) := by
  simp only [markSubprogram, hf]

theorem markLocation_eq (hactive : r.active = some scope) :
    r.markLocation m c line =
      .ok (c.locate (some (m.graph.addDebug (locationNode line scope) false).1),
        { m with graph := (m.graph.addDebug (locationNode line scope) false).2 },
        .markedLocation line) := by
  simp only [markLocation, addLocation, hactive]
  rfl

/-- The graph after the unit and the flags are committed. -/
def finalGraph (r : TypedRecorder) (g : Graph) : Graph :=
  (((g.addNamed unitListName r.unit).addFlag dwarfVersion).2.addFlag debugInfoVersion).2

theorem grows_addSubprogram (r : TypedRecorder) (name linkageName : String) (line : Nat)
    (g : Graph) : g.Grows (r.addSubprogram name linkageName line g).2.2 := by
  obtain ⟨type, locals, -, hgraph⟩ := r.addSubprogram_eq name linkageName line g
  rw [hgraph, ← Graph.add_of_isDistinct rfl]
  exact (grows_withType g).trans (Graph.grows_add _ _)

theorem grows_finalGraph (r : TypedRecorder) (g : Graph) : g.Grows (r.finalGraph g) :=
  ((g.grows_addNamed _ _).trans (Graph.grows_addFlag _ _)).trans (Graph.grows_addFlag _ _)

theorem fst_finalize (r : TypedRecorder) (m : Module) :
    (r.finalize m).1 = { m with graph := r.finalGraph m.graph } := by
  simp only [finalize, finalGraph]

/-! A typed recorder uses no growable list. -/

theorem lists_create (settings : Settings) (source : SourceFile) (g : Graph) :
    (create settings source g).2.lists = g.lists := by
  simp only [create, Graph.lists_addDebug]

theorem lists_addSubprogram (r : TypedRecorder) (name linkageName : String) (line : Nat)
    (g : Graph) : (r.addSubprogram name linkageName line g).2.2.lists = g.lists := by
  simp only [addSubprogram, addType, Graph.lists_addDebug, Graph.lists_addTuple]

theorem lists_finalGraph (r : TypedRecorder) (g : Graph) : (r.finalGraph g).lists = g.lists := by
  rw [finalGraph, Graph.lists_addFlag, Graph.lists_addFlag]
  rfl

end TypedRecorder

/-! ## Tagged recorders -/

namespace TaggedRecorder

variable {r : TaggedRecorder} {m : Module} {c : Cursor} {function : FunctionId} {f : Function}
  {name : String} {line : Nat} {scope : NodeId}

/-- The marker of a line as it stands at a cursor, with its location attached. -/
def markerAt (c : Cursor) (line : Nat) (location : NodeId) : Instruction :=
  { operation := marker line
    block := c.block
    location := c.location
    attachments := ⟨[(locationKey, location)]⟩ }

theorem find?_markerAt (c : Cursor) (line : Nat) (location : NodeId) :
    (markerAt c line location).attachments.find? locationKey = some location := by
  simp only [markerAt, Keyed.find?, Keyed.lookup, if_true]

theorem grows_addPair (source : SourceFile) (g : Graph) : g.Grows (addPair source g).2 :=
  g.grows_addTuple _

theorem grows_addFile (source : SourceFile) (g : Graph) : g.Grows (addFile source g).2 := by
  simp only [addFile]
  exact (grows_addPair source g).trans (Graph.grows_addTuple _ _)

theorem grows_addType (g : Graph) : g.Grows (addType g).2 := by
  simp only [addType]
  exact (g.grows_addTuple _).trans (Graph.grows_addTuple _ _)

theorem lists_addPair (source : SourceFile) (g : Graph) : (addPair source g).2.lists = g.lists :=
  g.lists_addTuple _

theorem lists_addFile (source : SourceFile) (g : Graph) : (addFile source g).2.lists = g.lists := by
  simp only [addFile, Graph.lists_addTuple, lists_addPair]

theorem lists_addType (g : Graph) : (addType g).2.lists = g.lists := by
  simp only [addType, Graph.lists_addTuple]

theorem node?_addPair {g : Graph} (hg : g.Indexed) (source : SourceFile) :
    (addPair source g).2.node? (addPair source g).1 = some (.tuple (pairOperands source)) :=
  hg.node?_add (.tuple (pairOperands source))

/-- The file is there with the pair that it refers to. -/
theorem nodes_addFile {g : Graph} (hg : g.Indexed) (source : SourceFile) : ∃ pair,
    (addFile source g).2.node? pair = some (.tuple (pairOperands source)) ∧
    (addFile source g).2.node? (addFile source g).1 = some (.tuple (fileOperands pair)) := by
  have hpair := node?_addPair hg source
  have hindexed := (grows_addPair source g).indexed hg
  simp only [addFile, Graph.addTuple_eq_add]
  generalize addPair source g = pair at hpair hindexed ⊢
  exact ⟨pair.1, (Graph.extends_add _ _).node? hpair, hindexed.node?_add _⟩

/-- The type is there with the tuple of types that it refers to. -/
theorem nodes_addType {g : Graph} (hg : g.Indexed) : ∃ types,
    (addType g).2.node? types = some (.tuple typesOperands) ∧
    (addType g).2.node? (addType g).1 = some (.tuple (typeOperands types)) := by
  have htypes := hg.node?_add (.tuple typesOperands)
  have hindexed := hg.add (.tuple typesOperands)
  simp only [addType, Graph.addTuple_eq_add]
  generalize g.add (.tuple typesOperands) = types at htypes hindexed ⊢
  exact ⟨types.1, (Graph.extends_add _ _).node? htypes, hindexed.node?_add _⟩

theorem grows_create (settings : Settings) (source : SourceFile) (g : Graph) :
    g.Grows (create settings source g).2 := by
  simp only [create]
  exact ((((grows_addFile source g).trans (Graph.grows_newList _)).trans
    (grows_addPair source _)).trans (Graph.grows_addTuple _ _)).trans (Graph.grows_addTuple _ _)

theorem source_create (settings : Settings) (source : SourceFile) (g : Graph) :
    (create settings source g).1.source = source := by
  simp only [create]

theorem optimized_create (settings : Settings) (source : SourceFile) (g : Graph) :
    (create settings source g).1.optimized = settings.optimized := by
  simp only [create]

theorem lastLine_create (settings : Settings) (source : SourceFile) (g : Graph) :
    (create settings source g).1.lastLine = none := by
  simp only [create]

theorem active_create (settings : Settings) (source : SourceFile) (g : Graph) :
    (create settings source g).1.active = none := by
  simp only [create]

theorem recorder_addSubprogram (r : TaggedRecorder) (name linkageName : String) (line : Nat)
    (m : Module) :
    (r.addSubprogram name linkageName line m).2.1 =
      { r with active := some (r.addSubprogram name linkageName line m).1 } := by
  simp only [addSubprogram]

theorem module_addSubprogram (r : TaggedRecorder) (name linkageName : String) (line : Nat)
    (m : Module) :
    (r.addSubprogram name linkageName line m).2.2 =
      { m with graph := (r.addSubprogram name linkageName line m).2.2.graph } := by
  simp only [addSubprogram]

/-- The graph with what every subprogram refers to: its type and an empty tuple. -/
def withType (g : Graph) : Graph := ((addType g).2.addTuple emptyOperands).2

theorem grows_withType (g : Graph) : g.Grows (withType g) :=
  (grows_addType g).trans (Graph.grows_addTuple _ _)

/-- The graph with what every subprogram of a source refers to: beside the type, the file and
the pair. -/
def withParts (source : SourceFile) (g : Graph) : Graph :=
  (addPair source (addFile source (withType g)).2).2

theorem grows_withParts (source : SourceFile) (g : Graph) : g.Grows (withParts source g) :=
  ((grows_withType g).trans (grows_addFile source _)).trans (grows_addPair source _)

/-- A subprogram is a tuple of the graph, and is pushed to the list. -/
theorem addSubprogram_eq (r : TaggedRecorder) (name linkageName : String) (line : Nat)
    (m : Module) : ∃ pair context type locals,
      (r.addSubprogram name linkageName line m).1 =
        ((withParts r.source m.graph).add (.tuple (r.subprogramOperands pair context name
          linkageName line type locals (m.findFunction? linkageName)))).1 ∧
      (r.addSubprogram name linkageName line m).2.2.graph =
        ((withParts r.source m.graph).add (.tuple (r.subprogramOperands pair context name
          linkageName line type locals (m.findFunction? linkageName)))).2.pushToList r.subprograms
            (r.addSubprogram name linkageName line m).1 := by
  refine ⟨(addPair r.source (addFile r.source (withType m.graph)).2).1,
    (addFile r.source (withType m.graph)).1, (addType m.graph).1,
    ((addType m.graph).2.addTuple emptyOperands).1, ?_, ?_⟩
  · simp only [addSubprogram, withParts, withType, Graph.addTuple_eq_add]
  · simp only [addSubprogram, withParts, withType, Graph.addTuple_eq_add]

theorem node?_addSubprogram {m : Module} (hm : m.graph.Indexed) (r : TaggedRecorder)
    (name linkageName : String) (line : Nat) : ∃ pair context type locals,
      (r.addSubprogram name linkageName line m).2.2.graph.node?
        (r.addSubprogram name linkageName line m).1 =
          some (.tuple (r.subprogramOperands pair context name linkageName line type locals
            (m.findFunction? linkageName))) := by
  obtain ⟨pair, context, type, locals, hid, hgraph⟩ := r.addSubprogram_eq name linkageName line m
  have hparts := (grows_withParts r.source m.graph).indexed hm
  have hnode := hparts.node?_add (.tuple (r.subprogramOperands pair context name linkageName line
    type locals (m.findFunction? linkageName)))
  refine ⟨pair, context, type, locals, ?_⟩
  rw [hgraph, hid]
  generalize (withParts r.source m.graph).add _ = added at hnode ⊢
  exact hnode

/-- A pair that is there is not added again. -/
theorem addPair_eq {g : Graph} (hg : g.Indexed) {source : SourceFile} {pair : NodeId}
    (hpair : g.node? pair = some (.tuple (pairOperands source))) :
    addPair source g = (pair, g) :=
  Graph.add_of_found ((hg.shared _ _).mpr ⟨hpair, rfl⟩)

/-- The graph has the file of a source, which refers to the pair. -/
def HasFile (source : SourceFile) (g : Graph) (file pair : NodeId) : Prop :=
  g.node? pair = some (.tuple (pairOperands source)) ∧
    g.node? file = some (.tuple (fileOperands pair))

namespace HasFile

variable {source : SourceFile} {g g' : Graph} {file pair : NodeId}

theorem mono (h : HasFile source g file pair) (hextends : g.Extends g') :
    HasFile source g' file pair :=
  ⟨hextends.node? h.1, hextends.node? h.2⟩

/-- A file refers to one pair. -/
theorem unique {pair' : NodeId} (h : HasFile source g file pair)
    (h' : HasFile source g file pair') : pair' = pair := by
  have hsame := h'.2.symm.trans h.2
  simp only [fileOperands, Option.some.injEq, Node.tuple.injEq, List.cons.injEq,
    Operand.node.injEq, true_and, and_true] at hsame
  exact hsame

/-- A file that is there is not added again. -/
theorem addFile_eq (h : HasFile source g file pair) (hg : g.Indexed) :
    addFile source g = (file, g) := by
  simp only [addFile, addPair_eq hg h.1]
  exact Graph.add_of_found ((hg.shared _ _).mpr ⟨h.2, rfl⟩)

/-- A subprogram refers to the recorder's file and to its pair, and what else it refers to is
added before it. -/
theorem addSubprogram_eq (h : HasFile r.source m.graph r.file pair) (hm : m.graph.Indexed)
    (name linkageName : String) (line : Nat) : ∃ type types locals,
      (withType m.graph).node? type = some (.tuple (typeOperands types)) ∧
      (withType m.graph).node? types = some (.tuple typesOperands) ∧
      (withType m.graph).node? locals = some (.tuple emptyOperands) ∧
      (r.addSubprogram name linkageName line m).1 =
        ((withType m.graph).add (.tuple (r.subprogramOperands pair r.file name linkageName line
          type locals (m.findFunction? linkageName)))).1 ∧
      (r.addSubprogram name linkageName line m).2.2.graph =
        ((withType m.graph).add (.tuple (r.subprogramOperands pair r.file name linkageName line
          type locals (m.findFunction? linkageName)))).2.pushToList r.subprograms
            (r.addSubprogram name linkageName line m).1 := by
  obtain ⟨types, htypes, htype⟩ := nodes_addType hm
  have hlocals := ((grows_addType m.graph).indexed hm).node?_add (.tuple emptyOperands)
  have hempty := Graph.extends_add (addType m.graph).2 (.tuple emptyOperands)
  have hkept := h.mono (grows_withType m.graph).nodes
  have hindexed := (grows_withType m.graph).indexed hm
  rw [withType, Graph.addTuple_eq_add] at hkept hindexed ⊢
  simp only [addSubprogram, Graph.addTuple_eq_add, hkept.addFile_eq hindexed,
    addPair_eq hindexed hkept.1]
  exact ⟨_, types, _, hempty.node? htype, hempty.node? htypes, hlocals, rfl, rfl⟩

/-- The subprogram is there with all that it refers to. -/
theorem nodes_addSubprogram (h : HasFile r.source m.graph r.file pair) (hm : m.graph.Indexed)
    (name linkageName : String) (line : Nat) : ∃ type types locals,
      (r.addSubprogram name linkageName line m).2.2.graph.node?
          (r.addSubprogram name linkageName line m).1 =
        some (.tuple (r.subprogramOperands pair r.file name linkageName line type locals
          (m.findFunction? linkageName))) ∧
      (r.addSubprogram name linkageName line m).2.2.graph.node? type =
        some (.tuple (typeOperands types)) ∧
      (r.addSubprogram name linkageName line m).2.2.graph.node? types =
        some (.tuple typesOperands) ∧
      (r.addSubprogram name linkageName line m).2.2.graph.node? locals =
        some (.tuple emptyOperands) := by
  obtain ⟨type, types, locals, htype, htypes, hlocals, hid, hgraph⟩ :=
    h.addSubprogram_eq hm name linkageName line
  have hindexed := (grows_withType m.graph).indexed hm
  have hnode := hindexed.node?_add (.tuple (r.subprogramOperands pair r.file name linkageName line
    type locals (m.findFunction? linkageName)))
  have hextends := (withType m.graph).extends_add (.tuple (r.subprogramOperands pair r.file name
    linkageName line type locals (m.findFunction? linkageName)))
  refine ⟨type, types, locals, ?_⟩
  rw [hgraph, hid]
  generalize (withType m.graph).add _ = added at hnode hextends ⊢
  exact ⟨hnode, hextends.node? htype, hextends.node? htypes, hextends.node? hlocals⟩

end HasFile

/-- What is created: the file with its pair, an empty tuple, and the compile unit, which refers to
the pair and to the list. -/
theorem nodes_create {g : Graph} (hg : g.Indexed) (settings : Settings) (source : SourceFile) :
    ∃ pair empty,
      HasFile source (create settings source g).2 (create settings source g).1.file pair ∧
      (create settings source g).2.node? empty = some (.tuple emptyOperands) ∧
      (create settings source g).2.node? (create settings source g).1.unit =
        some (.tuple (unitOperands settings pair empty
          (create settings source g).1.subprograms)) := by
  obtain ⟨pair, hpair, hfile⟩ := nodes_addFile hg source
  have hindexed := ((grows_addFile source g).indexed hg).newList
  have hagain := addPair_eq hindexed hpair
  simp only [create, hagain, Graph.addTuple_eq_add]
  generalize (addFile source g).2.newList.1 = list
  have hempty := hindexed.node?_add (.tuple emptyOperands)
  have hextends := Graph.extends_add (addFile source g).2.newList.2 (.tuple emptyOperands)
  have hindexed := hindexed.add (.tuple emptyOperands)
  generalize (addFile source g).2.newList.2.add (.tuple emptyOperands) = empty
    at hempty hextends hindexed ⊢
  have hextends' := empty.2.extends_add (.tuple (unitOperands settings pair empty.1 list))
  exact ⟨pair, empty.1, ⟨(hextends.trans hextends').node? hpair,
    (hextends.trans hextends').node? hfile⟩, hextends'.node? hempty, hindexed.node?_add _⟩

theorem markSubprogram_eq (hf : m.function? function = some f) :
    r.markSubprogram m function name line =
      .ok ((r.addSubprogram name f.name line m).2.1, (r.addSubprogram name f.name line m).2.2,
        .markedSubprogram name f.name line) := by
  simp only [markSubprogram, hf]

theorem markLocation_of_repeated (hline : r.lastLine = some line) :
    r.markLocation m c line = .ok (r, m, .skippedLine line) := by
  rw [markLocation, if_pos hline]

theorem markLocation_of_new (hline : r.lastLine ≠ some line) (hactive : r.active = some scope)
    (hblock : c.block.index < m.blocks.size) :
    r.markLocation m c line =
      .ok ({ r with lastLine := some line },
        { m with graph := (m.graph.addTuple (locationOperands line scope)).2 }.pushInstruction
          (markerAt c line (m.graph.addTuple (locationOperands line scope)).1),
        .markedLocation line) := by
  have hemit := Module.emit?_of_lt
    (m := { m with graph := (m.graph.addTuple (locationOperands line scope)).2 })
    (marker line) hblock
  rw [markLocation, if_neg hline]
  simp only [addLocation, hactive, bind, Except.bind, hemit,
    Module.attachToInstruction_pushInstruction]
  rfl

/-- The graph after the unit and the flag are committed. -/
def finalGraph (r : TaggedRecorder) (g : Graph) : Graph :=
  ((g.addNamed unitListName r.unit).addFlag debugInfoVersion).2

theorem grows_addSubprogram (r : TaggedRecorder) (name linkageName : String) (line : Nat)
    (m : Module) : m.graph.Grows (r.addSubprogram name linkageName line m).2.2.graph := by
  obtain ⟨pair, context, type, locals, -, hgraph⟩ := r.addSubprogram_eq name linkageName line m
  rw [hgraph]
  exact ((grows_withParts r.source m.graph).trans (Graph.grows_add _ _)).trans
    (Graph.grows_pushToList _ _ _)

theorem grows_finalGraph (r : TaggedRecorder) (g : Graph) : g.Grows (r.finalGraph g) :=
  (g.grows_addNamed _ _).trans (Graph.grows_addFlag _ _)

theorem fst_finalize (r : TaggedRecorder) (m : Module) :
    (r.finalize m).1 = { m with graph := r.finalGraph m.graph } := by
  simp only [finalize, finalGraph]

/-! A tagged recorder makes one list and pushes its subprograms to it. -/

theorem subprograms_create (settings : Settings) (source : SourceFile) (g : Graph) :
    (create settings source g).1.subprograms = ⟨g.lists.size⟩ := by
  simp only [create, Graph.newList, lists_addFile]

theorem lists_create (settings : Settings) (source : SourceFile) (g : Graph) :
    (create settings source g).2.lists = g.lists.push #[] := by
  simp only [create, Graph.newList, Graph.lists_addTuple, lists_addPair, lists_addFile]

theorem lists_addSubprogram (r : TaggedRecorder) (name linkageName : String) (line : Nat)
    (m : Module) :
    (r.addSubprogram name linkageName line m).2.2.graph.lists =
      m.graph.lists.modify r.subprograms.index
        (·.push (r.addSubprogram name linkageName line m).1) := by
  simp only [addSubprogram, Graph.pushToList, Graph.lists_addTuple, lists_addPair, lists_addFile,
    lists_addType]

theorem lists_finalGraph (r : TaggedRecorder) (g : Graph) : (r.finalGraph g).lists = g.lists := by
  rw [finalGraph, Graph.lists_addFlag]
  rfl

end TaggedRecorder

/-! ## The frame of a module -/

namespace Recorder

/-- A recorder that is on has a subprogram for new locations. -/
def IsReady : Recorder → Prop
  | .off => True
  | .typed r => r.active.isSome
  | .tagged r => r.active.isSome

variable {r : Recorder} {m : Module} {c : Cursor} {function : FunctionId}

theorem markSubprogram_ok (h : function.index < m.functions.size) (name : String)
    (line : Nat) : ∃ r' m' event,
      r.markSubprogram m function name line = .ok (r', m', event) ∧
        r'.IsReady ∧ m.SameFrame m' := by
  obtain ⟨f, hf⟩ := Module.exists_function? h
  cases r with
  | off => exact ⟨_, _, _, rfl, trivial, .refl m⟩
  | typed t =>
      simp only [markSubprogram, TypedRecorder.markSubprogram_eq hf]
      refine ⟨_, _, _, rfl, ?_, ?_⟩
      · rw [TypedRecorder.recorder_addSubprogram]
        rfl
      · exact (m.sameFrame_graph _).trans (Module.sameFrame_attachToFunction _ _ _ _)
  | tagged t =>
      simp only [markSubprogram, TaggedRecorder.markSubprogram_eq hf]
      refine ⟨_, _, _, rfl, ?_, ?_⟩
      · rw [TaggedRecorder.recorder_addSubprogram]
        rfl
      · rw [TaggedRecorder.module_addSubprogram]
        exact m.sameFrame_graph _

theorem markLocation_ok (hready : r.IsReady) (h : c.block.index < m.blocks.size)
    (line : Nat) : ∃ r' c' m' event,
      r.markLocation m c line = .ok (r', c', m', event) ∧
        r'.IsReady ∧ c'.block = c.block ∧ m.SameFrame m' := by
  cases r with
  | off => exact ⟨_, _, _, _, rfl, trivial, rfl, .refl m⟩
  | typed t =>
      obtain ⟨scope, hscope⟩ := Option.isSome_iff_exists.mp hready
      simp only [markLocation, TypedRecorder.markLocation_eq hscope]
      exact ⟨_, _, _, _, rfl, hready, rfl, m.sameFrame_graph _⟩
  | tagged t =>
      by_cases hline : t.lastLine = some line
      · simp only [markLocation, TaggedRecorder.markLocation_of_repeated hline]
        exact ⟨_, _, _, _, rfl, hready, rfl, .refl m⟩
      · obtain ⟨scope, hscope⟩ := Option.isSome_iff_exists.mp hready
        simp only [markLocation, TaggedRecorder.markLocation_of_new hline hscope h]
        exact ⟨_, _, _, _, rfl, hready, rfl,
          (m.sameFrame_graph _).trans (Module.sameFrame_pushInstruction _ _)⟩

theorem fst_finalize_typed (t : TypedRecorder) (m : Module) :
    ((Recorder.typed t).finalize m).1 = (t.finalize m).1 := by
  simp only [finalize]

theorem fst_finalize_tagged (t : TaggedRecorder) (m : Module) :
    ((Recorder.tagged t).finalize m).1 = (t.finalize m).1 := by
  simp only [finalize]

theorem sameFrame_finalize (r : Recorder) (m : Module) :
    m.SameFrame (r.finalize m).1 := by
  cases r with
  | off => exact .refl m
  | typed t =>
      rw [fst_finalize_typed, TypedRecorder.fst_finalize]
      exact m.sameFrame_graph _
  | tagged t =>
      rw [fst_finalize_tagged, TaggedRecorder.fst_finalize]
      exact m.sameFrame_graph _

end Recorder

end DebugMetadata

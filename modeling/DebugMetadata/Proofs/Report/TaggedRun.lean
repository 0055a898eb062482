import DebugMetadata.Proofs.Graph.Named
import DebugMetadata.Proofs.Report.Reading

/-!
# What a tagged recorder has recorded

After every call of a tagged recorder the graph holds its file pair, its compile
unit and, in the list that the unit refers to, the handle of a subprogram for
every registration, in order.  Equal subprograms have one handle, which the list
then holds more than once.
-/

namespace DebugMetadata.TaggedRecorder

open Script (Mark)

/-- The graph holds what a tagged recorder has recorded of the registrations, and
its compile unit was committed so many times. -/
structure Holds (settings : Settings) (source : SourceFile) (marks : List Mark) (commits : Nat)
    (r : TaggedRecorder) (g : Graph) : Prop where
  indexed : g.Indexed
  optimized : r.optimized = settings.optimized
  source : r.source = source
  unit : ∃ pair empty, HasFile r.source g r.file pair ∧
    g.node? r.unit = some (.tuple (unitOperands settings pair empty r.subprograms))
  committed : (g.namedNodes unitListName).toList = List.replicate commits r.unit
  subprograms : ∃ ids, g.list? r.subprograms = some ids ∧ List.Forall₂
    (fun id (mark : Mark) => ∃ pair type locals function, HasFile r.source g r.file pair ∧
      g.node? id = some (.tuple (r.subprogramOperands pair r.file mark.name mark.linkageName
        mark.line type locals function)))
    ids.toList marks

variable {settings : Settings} {source : SourceFile} {marks : List Mark} {commits : Nat}
  {r : TaggedRecorder} {g g' : Graph}

theorem HasFile.readPair? {file pair : NodeId} (h : HasFile source g file pair) :
    readPair? g pair = some source := by
  rw [TaggedRecorder.readPair?, Graph.tuple?, h.1]
  rfl

namespace Holds

/-! ## Calls -/

theorem of_extends (h : Holds settings source marks commits r g) (hextends : g.Extends g')
    (hindexed : g'.Indexed) (hlists : g'.lists = g.lists)
    (hnamed : g'.namedNodes unitListName = g.namedNodes unitListName) :
    Holds settings source marks commits r g' := by
  obtain ⟨pair, empty, hfile, hunit⟩ := h.unit
  obtain ⟨ids, hids, hsubprograms⟩ := h.subprograms
  refine ⟨hindexed, h.optimized, h.source,
    ⟨pair, empty, hfile.mono hextends, hextends.node? hunit⟩, ?_, ids, ?_, ?_⟩
  · rw [hnamed]
    exact h.committed
  · rw [Graph.list?, hlists]
    exact hids
  · apply hsubprograms.imp
    rintro id mark ⟨pair, type, locals, function, hfile, hnode⟩
    exact ⟨pair, type, locals, function, hfile.mono hextends, hextends.node? hnode⟩

theorem add (h : Holds settings source marks commits r g) (node : Node) :
    Holds settings source marks commits r (g.add node).2 := by
  apply h.of_extends (g.extends_add node) (h.indexed.add node) (g.lists_add node)
  exact g.namedNodes_add node unitListName

theorem addFlag (h : Holds settings source marks commits r g) (flag : ModuleFlag) :
    Holds settings source marks commits r (g.addFlag flag).2 := by
  have hextends := (g.extends_add (.tuple flag.operands)).trans
    (.of_nodes_eq (g.nodes_addFlag flag))
  exact h.of_extends hextends (h.indexed.addFlag flag) (g.lists_addFlag flag)
    (h.indexed.namedNodes_addFlag_of_ne flag (by decide))

theorem addNamed (h : Holds settings source marks commits r g) :
    Holds settings source marks (commits + 1) r (g.addNamed unitListName r.unit) := by
  refine ⟨h.indexed.addNamed _ _, h.optimized, h.source, h.unit, ?_, h.subprograms⟩
  rw [h.indexed.namedNodes_addNamed, if_pos rfl, Array.toList_push, h.committed,
    List.replicate_succ']

theorem finalGraph (h : Holds settings source marks commits r g) :
    Holds settings source marks (commits + 1) r (r.finalGraph g) :=
  h.addNamed.addFlag debugInfoVersion

theorem addLocation (h : Holds settings source marks commits r g) (line : Nat) (scope : NodeId) :
    Holds settings source marks commits { r with lastLine := some line }
      (g.addTuple (locationOperands line scope)).2 := by
  have hadd := h.add (.tuple (locationOperands line scope))
  exact ⟨hadd.indexed, hadd.optimized, hadd.source, hadd.unit, hadd.committed, hadd.subprograms⟩

theorem activate (h : Holds settings source marks commits r g) (active : Option NodeId) :
    Holds settings source marks commits { r with active } g :=
  ⟨h.indexed, h.optimized, h.source, h.unit, h.committed, h.subprograms⟩

theorem pushToList (h : Holds settings source marks commits r g) {id : NodeId} (mark : Mark)
    {pair type locals : NodeId} {function : Option FunctionId}
    (hfile : HasFile r.source g r.file pair)
    (hnode : g.node? id = some (.tuple (r.subprogramOperands pair r.file mark.name
      mark.linkageName mark.line type locals function))) :
    Holds settings source (marks ++ [mark]) commits r (g.pushToList r.subprograms id) := by
  obtain ⟨ids, hids, hsubprograms⟩ := h.subprograms
  refine ⟨h.indexed.pushToList _ _, h.optimized, h.source, h.unit, h.committed, ids.push id,
    ?_, ?_⟩
  · rw [Graph.list?_pushToList, if_pos rfl, hids]
    rfl
  · rw [Array.toList_push]
    exact List.rel_append hsubprograms (.cons ⟨pair, type, locals, function, hfile, hnode⟩ .nil)

theorem withType (h : Holds settings source marks commits r g) :
    Holds settings source marks commits r (withType g) := by
  simp only [TaggedRecorder.withType, addType, Graph.addTuple_eq_add]
  exact ((h.add _).add _).add _

theorem addSubprogram {m : Module} (h : Holds settings source marks commits r m.graph)
    (name linkageName : String) (line : Nat) :
    Holds settings source (marks ++ [⟨name, linkageName, line⟩]) commits
      (r.addSubprogram name linkageName line m).2.1
      (r.addSubprogram name linkageName line m).2.2.graph := by
  obtain ⟨pair, -, hfile, -⟩ := h.unit
  obtain ⟨type, types, locals, -, -, -, hid, hgraph⟩ :=
    hfile.addSubprogram_eq h.indexed name linkageName line
  have hfile' := hfile.mono (grows_addSubprogram r name linkageName line m).nodes
  have hnode := h.withType.indexed.node?_add (.tuple (r.subprogramOperands pair r.file name
    linkageName line type locals (m.findFunction? linkageName)))
  have hadd := h.withType.add (.tuple (r.subprogramOperands pair r.file name linkageName line type
    locals (m.findFunction? linkageName)))
  rw [hgraph] at hfile'
  rw [hgraph, recorder_addSubprogram, hid]
  generalize (TaggedRecorder.withType m.graph).add _ = added at hfile' hnode hadd ⊢
  exact (hadd.pushToList ⟨name, linkageName, line⟩ hfile' hnode).activate _

theorem create (settings : Settings) (source : SourceFile) :
    Holds settings source [] 0 (TaggedRecorder.create settings source ∅).1
      (TaggedRecorder.create settings source ∅).2 := by
  obtain ⟨pair, empty, hfile, -, hunit⟩ := nodes_create Graph.indexed_empty settings source
  have hindexed := (grows_create settings source ∅).indexed Graph.indexed_empty
  have hsource := source_create settings source ∅
  have hnamed := named_create settings source ∅
  have hlist : (TaggedRecorder.create settings source ∅).2.list?
      (TaggedRecorder.create settings source ∅).1.subprograms = some #[] := by
    rw [Graph.list?, lists_create, subprograms_create]
    exact Array.getElem?_push_size
  have hoptimized := optimized_create settings source ∅
  generalize TaggedRecorder.create settings source ∅ = created at *
  refine ⟨hindexed, hoptimized, hsource, ⟨pair, empty, ?_, hunit⟩, ?_, #[], hlist, .nil⟩
  · rw [hsource]
    exact hfile
  · rw [Graph.namedNodes, hnamed, ← Graph.namedNodes, Graph.namedNodes_empty]
    rfl

/-! ## Reading -/

theorem readSubprogram? (h : Holds settings source marks commits r g) {id : NodeId} {mark : Mark}
    {pair type locals : NodeId} {function : Option FunctionId}
    (hfile : HasFile r.source g r.file pair)
    (hnode : g.node? id = some (.tuple (r.subprogramOperands pair r.file mark.name
      mark.linkageName mark.line type locals function))) :
    readSubprogram? g id = some (mark.record settings source) := by
  rw [TaggedRecorder.readSubprogram?, tagged?_of_node? hnode rfl]
  change (TaggedRecorder.readPair? g pair).bind (fun source =>
    (Operand.i1 r.optimized).i1?.bind fun optimized =>
      some (SubprogramRecord.mk mark.name mark.linkageName mark.line mark.line optimized
        source)) = _
  rw [hfile.readPair?, Operand.i1?_i1, h.optimized, h.source]
  rfl

theorem read? (h : Holds settings source marks 1 r g) :
    read? g = some
      { source
        language := settings.language
        producer := settings.producer
        optimized := settings.optimized
        subprograms := marks.map (Mark.record settings source) } := by
  obtain ⟨pair, empty, hfile, hunit⟩ := h.unit
  obtain ⟨ids, hids, hsubprograms⟩ := h.subprograms
  have htagged : tagged? g unitTag r.unit =
      some (unitOperands settings pair empty r.subprograms) := tagged?_of_node? hunit rfl
  have hread : ids.toList.mapM (TaggedRecorder.readSubprogram? g) =
      some (marks.map (Mark.record settings source)) := by
    apply mapM_of_forall₂ hsubprograms
    rintro id mark ⟨pair, type, locals, function, hfile, hnode⟩
    exact h.readSubprogram? hfile hnode
  rw [TaggedRecorder.read?, h.committed, List.replicate_one]
  simp only [htagged, Option.bind_eq_bind, Option.bind_some]
  change (TaggedRecorder.readPair? g pair).bind _ = _
  rw [hfile.readPair?, Option.bind_some, h.source]
  change (Language.ofCode? settings.language.code).bind _ = _
  rw [Language.ofCode?_code, Option.bind_some]
  change (some settings.producer).bind _ = _
  rw [Option.bind_some]
  change (Operand.i1 settings.optimized).i1?.bind _ = _
  rw [Operand.i1?_i1, Option.bind_some]
  change (g.list? r.subprograms).bind _ = _
  rw [hids, Option.bind_some, hread]
  rfl

end Holds

end DebugMetadata.TaggedRecorder

namespace DebugMetadata.Script

/-- A script registers with a tagged recorder what it reports. -/
theorem exists_tagged_holds {script : List Step} (hscript : WellFormed script)
    (settings : Settings) (source : SourceFile) (name : String) :
    ∃ v r, (View.tagged settings source name).run script = some v ∧ v.recorder = .tagged r ∧
      r.Holds settings source (marks script) (script.count .finalize) v.module.graph := by
  have hstart := TaggedRecorder.Holds.create settings source
  rw [View.tagged]
  generalize TaggedRecorder.create settings source ∅ = created at hstart ⊢
  have hrun := View.run_report hscript
    (P := fun marks commits v => ∃ r, v.recorder = .tagged r ∧
      r.Holds settings source marks commits v.module.graph)
    (Outline.Describes.start name created.2 (.tagged created.1)) ⟨created.1, rfl, hstart⟩ ?_ ?_ ?_ ?_
  · obtain ⟨v, hv, r, hr, h⟩ := hrun
    exact ⟨v, r, hv, hr, h⟩
  · rintro marks commits v v' ⟨r, hr, h⟩ hgraph hrecorder
    rw [← hrecorder] at hr
    rw [← hgraph] at h
    exact ⟨r, hr, h⟩
  · rintro marks commits v v' function f name line ⟨r, hr, h⟩ hf hstep
    rw [View.step_markSubprogram_tagged hr hf, Option.some.injEq] at hstep
    subst hstep
    have hadd := h.addSubprogram name f.name line
    generalize r.addSubprogram name f.name line v.module = added at hadd ⊢
    exact ⟨added.2.1, rfl, hadd⟩
  · rintro marks commits v v' n c line ⟨r, hr, h⟩ hready hn hblock hstep
    rw [hr] at hready
    obtain ⟨scope, hscope⟩ := Option.isSome_iff_exists.mp hready
    by_cases hline : r.lastLine = some line
    · rw [View.step_markLocation_of_repeated hr hline hn] at hstep
      cases hstep
      exact ⟨r, hr, h⟩
    · rw [View.step_markLocation_of_new hr hline hscope hn hblock] at hstep
      cases hstep
      refine ⟨_, rfl, ?_⟩
      dsimp only
      rw [Module.graph_pushInstruction]
      exact h.addLocation line scope
  · rintro marks commits v v' ⟨r, hr, h⟩ hstep
    rw [View.step_finalize_tagged hr] at hstep
    cases hstep
    refine ⟨r, hr, ?_⟩
    dsimp only
    exact h.finalGraph

end DebugMetadata.Script

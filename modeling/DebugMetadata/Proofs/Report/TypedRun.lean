import DebugMetadata.Proofs.Graph.Sharing
import DebugMetadata.Proofs.Lists
import DebugMetadata.Proofs.Report.Reading

/-!
# What a typed recorder has recorded

After every call of a typed recorder the graph holds its file node, its compile
unit and a subprogram of that unit for every registration, in order.
-/

namespace DebugMetadata.TypedRecorder

open Script (Mark)

/-- The graph holds what a typed recorder has recorded of the registrations, and
its compile unit was committed so many times. -/
structure Holds (settings : Settings) (source : SourceFile) (marks : List Mark) (commits : Nat)
    (r : TypedRecorder) (g : Graph) : Prop where
  indexed : g.Indexed
  optimized : r.optimized = settings.optimized
  file : g.node? r.file = some (.debug (fileNode source) false)
  unit : g.node? r.unit = some (.debug (unitNode settings r.file) true)
  committed : (g.namedNodes unitListName).toList = List.replicate commits r.unit
  subprograms : List.Forall₂
    (fun node (mark : Mark) => ∃ type locals,
      node = r.subprogramNode mark.name mark.linkageName mark.line type locals)
    (subprogramsOf g r.unit) marks

variable {settings : Settings} {source : SourceFile} {marks : List Mark} {commits : Nat}
  {r : TypedRecorder} {g g' : Graph} {unit : NodeId} {node : Node}

/-! ## Subprograms of a unit -/

theorem subprogramsOf_of_nodes_eq (h : g'.nodes = g.nodes) (unit : NodeId) :
    subprogramsOf g' unit = subprogramsOf g unit := by
  rw [subprogramsOf, h, subprogramsOf]

theorem subprogramsOf_push (h : g'.nodes = g.nodes.push node) (unit : NodeId) :
    subprogramsOf g' unit = subprogramsOf g unit ++ (subprogramOf? unit node).toList := by
  rw [subprogramsOf, h, Array.toList_push, filterMap_concat, subprogramsOf]

theorem subprogramsOf_add (g : Graph) (h : subprogramOf? unit node = none) :
    subprogramsOf (g.add node).2 unit = subprogramsOf g unit := by
  rcases g.nodes_add node with hnodes | hnodes
  · exact subprogramsOf_of_nodes_eq hnodes unit
  · rw [subprogramsOf_push hnodes, h, Option.toList_none, List.append_nil]

/-! ## Calls -/

namespace Holds

/-- Whatever else is added to the graph is no subprogram of the unit. -/
theorem add (h : Holds settings source marks commits r g)
    (hnode : subprogramOf? r.unit node = none) :
    Holds settings source marks commits r (g.add node).2 := by
  have hextends := g.extends_add node
  refine ⟨h.indexed.add node, h.optimized, hextends.node? h.file, hextends.node? h.unit, ?_, ?_⟩
  · rw [Graph.namedNodes, Graph.named_add]
    exact h.committed
  · rw [subprogramsOf_add g hnode]
    exact h.subprograms

theorem addFlag (h : Holds settings source marks commits r g) (flag : ModuleFlag) :
    Holds settings source marks commits r (g.addFlag flag).2 := by
  have hadd : Holds settings source marks commits r (g.add (.tuple flag.operands)).2 := h.add rfl
  have hextends := Graph.Extends.of_nodes_eq (g.nodes_addFlag flag)
  refine ⟨h.indexed.addFlag flag, h.optimized, hextends.node? hadd.file,
    hextends.node? hadd.unit, ?_, ?_⟩
  · rw [h.indexed.namedNodes_addFlag_of_ne flag (by decide)]
    exact h.committed
  · rw [subprogramsOf_of_nodes_eq (g.nodes_addFlag flag)]
    exact hadd.subprograms

theorem addNamed (h : Holds settings source marks commits r g) :
    Holds settings source marks (commits + 1) r (g.addNamed unitListName r.unit) := by
  refine ⟨h.indexed.addNamed _ _, h.optimized, h.file, h.unit, ?_, h.subprograms⟩
  rw [h.indexed.namedNodes_addNamed, if_pos rfl, Array.toList_push, h.committed,
    List.replicate_succ']

theorem finalGraph (h : Holds settings source marks commits r g) :
    Holds settings source marks (commits + 1) r (r.finalGraph g) :=
  (h.addNamed.addFlag dwarfVersion).addFlag debugInfoVersion

theorem withType (h : Holds settings source marks commits r g) :
    Holds settings source marks commits r (withType g) := by
  simp only [TypedRecorder.withType, addType, Graph.addTuple_eq_add, Graph.addDebug_eq_add]
  exact ((h.add rfl).add rfl).add rfl

theorem addSubprogram (h : Holds settings source marks commits r g) (name linkageName : String)
    (line : Nat) :
    Holds settings source (marks ++ [⟨name, linkageName, line⟩]) commits
      (r.addSubprogram name linkageName line g).2.1
      (r.addSubprogram name linkageName line g).2.2 := by
  obtain ⟨type, locals, -, hgraph⟩ := r.addSubprogram_eq name linkageName line g
  have htype := h.withType
  have hextends := Graph.extends_append (TypedRecorder.withType g)
    (.debug (r.subprogramNode name linkageName line type locals) true)
  have hsub : subprogramOf? r.unit
      (.debug (r.subprogramNode name linkageName line type locals) true) =
        some (r.subprogramNode name linkageName line type locals) :=
    if_pos ⟨rfl, rfl⟩
  rw [hgraph, recorder_addSubprogram]
  refine ⟨htype.indexed.append rfl, h.optimized, hextends.node? htype.file,
    hextends.node? htype.unit, htype.committed, ?_⟩
  rw [subprogramsOf_push (Graph.nodes_append _ _), hsub]
  exact List.rel_append htype.subprograms (.cons ⟨type, locals, rfl⟩ .nil)

theorem addLocation (h : Holds settings source marks commits r g) (line : Nat) (scope : NodeId) :
    Holds settings source marks commits r (g.addDebug (locationNode line scope) false).2 := by
  rw [Graph.addDebug_eq_add]
  exact h.add rfl

theorem create (settings : Settings) (source : SourceFile) :
    Holds settings source [] 0 (TypedRecorder.create settings source ∅).1
      (TypedRecorder.create settings source ∅).2 := by
  simp only [TypedRecorder.create, Graph.addDebug_eq_add]
  have hindexed := Graph.indexed_empty.add (.debug (fileNode source) false)
  have hfile := Graph.indexed_empty.node?_add (.debug (fileNode source) false)
  refine ⟨hindexed.add _, rfl, (Graph.extends_add _ _).node? hfile, hindexed.node?_add _, ?_, ?_⟩
  · rw [Graph.namedNodes_add, Graph.namedNodes_add, Graph.namedNodes_empty]
    rfl
  · rw [subprogramsOf_add _ rfl, subprogramsOf_add _ rfl]
    exact .nil

/-! ## Reading -/

theorem readFile? (h : Holds settings source marks commits r g) :
    readFile? g r.file = some source := by
  rw [TypedRecorder.readFile?, Graph.debug?, h.file]
  rfl

theorem readSubprogram? (h : Holds settings source marks commits r g) (mark : Mark)
    (type locals : NodeId) :
    readSubprogram? g (r.subprogramNode mark.name mark.linkageName mark.line type locals) =
      some (mark.record settings source) := by
  change (TypedRecorder.readFile? g r.file).bind (fun source =>
    some (SubprogramRecord.mk mark.name mark.linkageName mark.line mark.line r.optimized source)) = _
  rw [h.readFile?, h.optimized]
  rfl

theorem read? (h : Holds settings source marks 1 r g) :
    read? g = some
      { source
        language := settings.language
        producer := settings.producer
        optimized := settings.optimized
        subprograms := marks.map (Mark.record settings source) } := by
  have hunit : g.debug? .compileUnit r.unit = some (unitNode settings r.file) := by
    rw [Graph.debug?, h.unit]
    rfl
  have hsubprograms : (subprogramsOf g r.unit).mapM (TypedRecorder.readSubprogram? g) =
      some (marks.map (Mark.record settings source)) := by
    apply mapM_of_forall₂ h.subprograms
    rintro _ mark ⟨type, locals, rfl⟩
    exact h.readSubprogram? mark type locals
  rw [TypedRecorder.read?, h.committed, List.replicate_one]
  simp only [hunit, Option.bind_eq_bind, Option.bind_some]
  change (TypedRecorder.readFile? g r.file).bind _ = _
  rw [h.readFile?, Option.bind_some]
  change (Language.ofToken? settings.language.token).bind _ = _
  rw [Language.ofToken?_token, Option.bind_some]
  change ((subprogramsOf g r.unit).mapM (TypedRecorder.readSubprogram? g)).bind _ = _
  rw [hsubprograms]
  rfl

end Holds

end DebugMetadata.TypedRecorder

namespace DebugMetadata.Script

/-- A script registers with a typed recorder what it reports. -/
theorem exists_typed_holds {script : List Step} (hscript : WellFormed script)
    (settings : Settings) (source : SourceFile) (name : String) :
    ∃ v r, (View.typed settings source name).run script = some v ∧ v.recorder = .typed r ∧
      r.Holds settings source (marks script) (script.count .finalize) v.module.graph := by
  have hstart := TypedRecorder.Holds.create settings source
  rw [View.typed]
  generalize TypedRecorder.create settings source ∅ = created at hstart ⊢
  have hrun := View.run_report hscript
    (P := fun marks commits v => ∃ r, v.recorder = .typed r ∧
      r.Holds settings source marks commits v.module.graph)
    (Outline.Describes.start name created.2 (.typed created.1)) ⟨created.1, rfl, hstart⟩ ?_ ?_ ?_ ?_
  · obtain ⟨v, hv, r, hr, h⟩ := hrun
    exact ⟨v, r, hv, hr, h⟩
  · rintro marks commits v v' ⟨r, hr, h⟩ hgraph hrecorder
    rw [← hrecorder] at hr
    rw [← hgraph] at h
    exact ⟨r, hr, h⟩
  · rintro marks commits v v' function f name line ⟨r, hr, h⟩ hf hstep
    rw [View.step_markSubprogram_typed hr hf] at hstep
    cases hstep
    exact ⟨_, rfl, h.addSubprogram name f.name line⟩
  · rintro marks commits v v' n c line ⟨r, hr, h⟩ hready hn - hstep
    rw [hr] at hready
    obtain ⟨scope, hscope⟩ := Option.isSome_iff_exists.mp hready
    rw [View.step_markLocation_typed hr hscope hn] at hstep
    cases hstep
    exact ⟨r, hr, h.addLocation line scope⟩
  · rintro marks commits v v' ⟨r, hr, h⟩ hstep
    rw [View.step_finalize_typed hr] at hstep
    cases hstep
    refine ⟨r, hr, ?_⟩
    dsimp only
    exact h.finalGraph

end DebugMetadata.Script

import DebugMetadata.Proofs.Lists
import DebugMetadata.Proofs.Recorder.Cases

/-!
# Named lists

A named list keeps its place, its name and its nodes.  Only a node that is added to it
by its name comes after them, and only recorders that are finalized and flags do that
for a caller.
-/

namespace DebugMetadata

/-- The second list has the name and the nodes of the first one, and maybe more nodes. -/
def NamedGrows (list list' : String × Array NodeId) : Prop :=
  list.1 = list'.1 ∧ list.2.toList <+: list'.2.toList

theorem NamedGrows.refl (list : String × Array NodeId) : NamedGrows list list :=
  ⟨rfl, List.prefix_refl _⟩

theorem NamedGrows.trans {list list' list'' : String × Array NodeId}
    (h : NamedGrows list list') (h' : NamedGrows list' list'') : NamedGrows list list'' :=
  ⟨h.1.trans h'.1, h.2.trans h'.2⟩

namespace Graph

variable {g g' g'' : Graph}

/-- Every named list of the first graph is in its place in the second one, with its name and
its nodes. -/
def KeepsNamed (g g' : Graph) : Prop := InPlace NamedGrows g.named.entries g'.named.entries

theorem KeepsNamed.of_named_eq (h : g'.named = g.named) : g.KeepsNamed g' :=
  InPlace.of_eq NamedGrows.refl (congrArg NamedLists.entries h)

theorem KeepsNamed.trans (h : g.KeepsNamed g') (h' : g'.KeepsNamed g'') : g.KeepsNamed g'' :=
  InPlace.trans NamedGrows.trans h h'

theorem keepsNamed_add (g : Graph) (node : Node) : g.KeepsNamed (g.add node).2 :=
  .of_named_eq (g.named_add node)

theorem keepsNamed_addNamed (g : Graph) (name : String) (node : NodeId) :
    g.KeepsNamed (g.addNamed name node) := by
  unfold KeepsNamed addNamed
  cases hplace : g.named.places[name]? with
  | some n =>
      rw [NamedLists.add_of_place hplace]
      refine InPlace.modify (f := fun list => (list.1, list.2.push node)) NamedGrows.refl
        (fun list => ⟨rfl, ?_⟩) g.named.entries n
      rw [Array.toList_push]
      exact List.prefix_append _ _
  | none =>
      rw [NamedLists.add_of_no_place hplace]
      exact .concat NamedGrows.refl _ _

theorem keepsNamed_addFlag (g : Graph) (flag : ModuleFlag) :
    g.KeepsNamed (g.addFlag flag).2 := by
  have hadd : g.KeepsNamed (g.add (.tuple flag.operands)).2 := g.keepsNamed_add _
  rw [addFlag_eq]
  split
  · exact hadd
  · exact hadd.trans (keepsNamed_addNamed _ _ _)

theorem keepsNamed_perform {edit : Edit} {answer : Answer}
    (h : g.perform edit = .ok (answer, g')) : g.KeepsNamed g' := by
  cases performs_of_ok h with
  | add node => exact g.keepsNamed_add node
  | newList => exact .of_named_eq rfl
  | pushToList node hlist => exact .of_named_eq rfl
  | addNamed name node => exact g.keepsNamed_addNamed name node

end Graph

/-! ## Names -/

namespace Graph

variable {g : Graph} {name other : String}

theorem mem_keys_addFlag {flag : ModuleFlag} (h : other ∈ (g.addFlag flag).2.named.keys) :
    other ∈ g.named.keys ∨ other = ModuleFlag.listName := by
  rw [addFlag_eq] at h
  split at h
  · exact .inl (named_add g _ ▸ h)
  · rcases NamedLists.mem_keys_add h with hold | hnew
    · exact .inl (named_add g _ ▸ hold)
    · exact .inr hnew

end Graph

/-! ## Recorders -/

theorem TypedRecorder.named_create (settings : Settings) (source : SourceFile) (g : Graph) :
    (create settings source g).2.named = g.named := by
  simp only [create, Graph.named_addDebug]

theorem TypedRecorder.named_addSubprogram (t : TypedRecorder) (name linkageName : String)
    (line : Nat) (g : Graph) : (t.addSubprogram name linkageName line g).2.2.named = g.named := by
  simp only [addSubprogram, addType, Graph.named_addDebug, Graph.named_addTuple]

theorem TypedRecorder.keepsNamed_finalGraph (t : TypedRecorder) (g : Graph) :
    g.KeepsNamed (t.finalGraph g) :=
  ((g.keepsNamed_addNamed _ _).trans (Graph.keepsNamed_addFlag _ _)).trans
    (Graph.keepsNamed_addFlag _ _)

theorem TaggedRecorder.named_create (settings : Settings) (source : SourceFile) (g : Graph) :
    (create settings source g).2.named = g.named := by
  simp only [create, addFile, addPair, Graph.newList, Graph.named_addTuple]

theorem TaggedRecorder.named_addSubprogram (t : TaggedRecorder) (name linkageName : String)
    (line : Nat) (m : Module) :
    (t.addSubprogram name linkageName line m).2.2.graph.named = m.graph.named := by
  simp only [addSubprogram, addFile, addPair, addType, Graph.pushToList, Graph.named_addTuple]

theorem TaggedRecorder.keepsNamed_finalGraph (t : TaggedRecorder) (g : Graph) :
    g.KeepsNamed (t.finalGraph g) :=
  (g.keepsNamed_addNamed _ _).trans (Graph.keepsNamed_addFlag _ _)

namespace Recorder

variable {r r' : Recorder} {m m' : Module} {name linkageName : String}
  {line : Nat} {id : NodeId} {event : Option Event}

/-! No call but the last one writes to a named list. -/

theorem named_create {schema : Option Schema} {settings : Settings}
    {workingDirectory path : List UInt8}
    (h : create schema settings workingDirectory path m = .ok (r, m', event)) :
    m'.graph.named = m.graph.named := by
  rcases create_cases h with ⟨-, -, hm', -⟩ | ⟨source, -, -, -, hm', -⟩ | ⟨source, -, -, -, hm', -⟩
  · rw [hm']
  · rw [hm']
    dsimp only
    exact TypedRecorder.named_create settings source m.graph
  · rw [hm']
    dsimp only
    exact TaggedRecorder.named_create settings source m.graph

theorem named_markSubprogram {function : FunctionId}
    (h : r.markSubprogram m function name line = .ok (r', m', event)) :
    m'.graph.named = m.graph.named := by
  rcases markSubprogram_cases h with
    ⟨-, -, hm', -⟩ | ⟨t, f, -, -, -, hm', -⟩ | ⟨t, f, -, -, -, hm', -⟩
  · rw [hm']
  · rw [hm']
    exact t.named_addSubprogram name f.name line m.graph
  · rw [hm']
    exact t.named_addSubprogram name f.name line m

theorem named_markLocation {c c' : Cursor}
    (h : r.markLocation m c line = .ok (r', c', m', event)) :
    m'.graph.named = m.graph.named := by
  rcases markLocation_cases h with ⟨-, -, -, rfl, -⟩ | ⟨t, scope, -, -, -, -, rfl, -⟩ |
    ⟨t, -, -, -, -, rfl, -⟩ | ⟨t, scope, -, -, -, -, -, -, rfl, -⟩
  · rfl
  · exact m.graph.named_addDebug _ _
  · rfl
  · exact m.graph.named_addTuple _

theorem named_addSubprogram?
    (h : r.addSubprogram? name linkageName line m = some (id, r', m')) :
    m'.graph.named = m.graph.named := by
  rcases addSubprogram?_cases h with ⟨t, -, -, -, hm'⟩ | ⟨t, -, -, -, hm'⟩
  · rw [hm']
    exact t.named_addSubprogram name linkageName line m.graph
  · rw [hm']
    exact t.named_addSubprogram name linkageName line m

theorem named_addLocation? (h : r.addLocation? line m = some (.ok (id, m'))) :
    m'.graph.named = m.graph.named := by
  rcases addLocation?_cases h with ⟨t, scope, -, -, -, rfl⟩ | ⟨t, scope, -, -, -, rfl⟩
  · exact m.graph.named_addDebug _ _
  · exact m.graph.named_addTuple _

theorem keepsNamed_finalize (r : Recorder) (m : Module) :
    m.graph.KeepsNamed (r.finalize m).1.graph := by
  cases r with
  | off => exact .of_named_eq rfl
  | typed t =>
      rw [fst_finalize_typed, TypedRecorder.fst_finalize]
      dsimp only
      exact t.keepsNamed_finalGraph m.graph
  | tagged t =>
      rw [fst_finalize_tagged, TaggedRecorder.fst_finalize]
      dsimp only
      exact t.keepsNamed_finalGraph m.graph

end Recorder

end DebugMetadata

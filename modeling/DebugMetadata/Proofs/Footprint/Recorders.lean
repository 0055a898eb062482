import DebugMetadata.Proofs.Graph.Named
import DebugMetadata.Proofs.Graph.References
import DebugMetadata.Proofs.Session.Continuity

/-!
# What recorders of one schema write

A tagged recorder adds tuples and nothing else, and it makes no named list but those of its
units and of the flags.  A typed recorder emits no instruction.
-/

namespace DebugMetadata

/-! ## Graphs of tuples -/

namespace Graph

variable {g g' : Graph}

/-- Every node is a tuple. -/
def OnlyTuples (g : Graph) : Prop :=
  ∀ id node, g.node? id = some node → ∃ operands, node = .tuple operands

namespace OnlyTuples

theorem empty : (∅ : Graph).OnlyTuples := by
  intro id node hnode
  cases hnode

theorem addTuple (h : g.OnlyTuples) (operands : List Operand) :
    (g.addTuple operands).2.OnlyTuples := by
  intro id node hnode
  rw [addTuple_eq_add] at hnode
  rcases node?_add_cases hnode with hold | ⟨-, rfl⟩
  · exact h id node hold
  · exact ⟨operands, rfl⟩

/-! What is done to lists adds no node. -/

theorem newList (h : g.OnlyTuples) : g.newList.2.OnlyTuples := h

theorem pushToList (h : g.OnlyTuples) (list : ListId) (id : NodeId) :
    (g.pushToList list id).OnlyTuples := h

theorem addNamed (h : g.OnlyTuples) (name : String) (id : NodeId) :
    (g.addNamed name id).OnlyTuples := h

theorem addFlag (h : g.OnlyTuples) (flag : ModuleFlag) : (g.addFlag flag).2.OnlyTuples := by
  rw [addFlag_eq]
  split
  · exact h.addTuple flag.operands
  · exact (h.addTuple flag.operands).addNamed _ _

end OnlyTuples

end Graph

/-! ## Tagged recorders -/

namespace TaggedRecorder

variable {g : Graph}

theorem onlyTuples_addFile (h : g.OnlyTuples) (source : SourceFile) :
    (addFile source g).2.OnlyTuples := by
  simp only [addFile, addPair]
  exact (h.addTuple _).addTuple _

theorem onlyTuples_addType (h : g.OnlyTuples) : (addType g).2.OnlyTuples := by
  simp only [addType]
  exact (h.addTuple _).addTuple _

theorem onlyTuples_create (h : g.OnlyTuples) (settings : Settings) (source : SourceFile) :
    (create settings source g).2.OnlyTuples := by
  simp only [create]
  exact (((onlyTuples_addFile h source).newList.addTuple _).addTuple _).addTuple _

theorem onlyTuples_addSubprogram (t : TaggedRecorder) {m : Module} (h : m.graph.OnlyTuples)
    (name linkageName : String) (line : Nat) :
    (t.addSubprogram name linkageName line m).2.2.graph.OnlyTuples := by
  simp only [addSubprogram]
  have hlocals := (onlyTuples_addType h).addTuple emptyOperands
  exact (((onlyTuples_addFile hlocals t.source).addTuple _).addTuple _).pushToList _ _

theorem onlyTuples_finalGraph (t : TaggedRecorder) (h : g.OnlyTuples) :
    (t.finalGraph g).OnlyTuples :=
  (h.addNamed unitListName t.unit).addFlag debugInfoVersion

theorem mem_keys_finalGraph {t : TaggedRecorder} {name : String}
    (h : name ∈ (t.finalGraph g).named.keys) :
    name ∈ g.named.keys ∨ name = unitListName ∨ name = ModuleFlag.listName := by
  rcases Graph.mem_keys_addFlag h with hold | hflags
  · rcases NamedLists.mem_keys_add hold with hold | hunits
    · exact .inl hold
    · exact .inr (.inl hunits)
  · exact .inr (.inr hflags)

end TaggedRecorder

/-! ## Recorders of a schema -/

namespace Recorder

variable {r r' : Recorder} {m m' : Module} {c c' : Cursor} {function : FunctionId}
  {name linkageName : String} {line : Nat} {id : NodeId} {event : Option Event}
  {schema : Option Schema} {settings : Settings} {workingDirectory path : List UInt8}

/-! What is not typed adds tuples. -/

theorem onlyTuples_create (hg : m.graph.OnlyTuples) (hschema : schema ≠ some .modern)
    (h : create schema settings workingDirectory path m = .ok (r, m', event)) :
    m'.graph.OnlyTuples := by
  rcases create_cases h with ⟨-, -, hm', -⟩ | ⟨source, hmodern, -⟩ | ⟨source, -, -, -, hm', -⟩
  · rw [hm']
    exact hg
  · exact absurd hmodern hschema
  · rw [hm']
    dsimp only
    exact TaggedRecorder.onlyTuples_create hg settings source

theorem onlyTuples_markSubprogram (hg : m.graph.OnlyTuples) (hschema : r.schema? ≠ some .modern)
    (h : r.markSubprogram m function name line = .ok (r', m', event)) :
    m'.graph.OnlyTuples := by
  rcases markSubprogram_cases h with
    ⟨-, -, hm', -⟩ | ⟨t, f, rfl, -⟩ | ⟨t, f, -, -, -, hm', -⟩
  · rw [hm']
    exact hg
  · exact absurd rfl hschema
  · rw [hm']
    exact t.onlyTuples_addSubprogram hg name f.name line

theorem onlyTuples_markLocation (hg : m.graph.OnlyTuples) (hschema : r.schema? ≠ some .modern)
    (h : r.markLocation m c line = .ok (r', c', m', event)) : m'.graph.OnlyTuples := by
  rcases markLocation_cases h with ⟨-, -, -, rfl, -⟩ | ⟨t, scope, rfl, -⟩ |
    ⟨t, -, -, -, -, rfl, -⟩ | ⟨t, scope, -, -, -, -, -, -, rfl, -⟩
  · exact hg
  · exact absurd rfl hschema
  · exact hg
  · exact hg.addTuple _

theorem onlyTuples_addSubprogram? (hg : m.graph.OnlyTuples) (hschema : r.schema? ≠ some .modern)
    (h : r.addSubprogram? name linkageName line m = some (id, r', m')) :
    m'.graph.OnlyTuples := by
  rcases addSubprogram?_cases h with ⟨t, rfl, -⟩ | ⟨t, -, -, -, hm'⟩
  · exact absurd rfl hschema
  · rw [hm']
    exact t.onlyTuples_addSubprogram hg name linkageName line

theorem onlyTuples_addLocation? (hg : m.graph.OnlyTuples) (hschema : r.schema? ≠ some .modern)
    (h : r.addLocation? line m = some (.ok (id, m'))) : m'.graph.OnlyTuples := by
  rcases addLocation?_cases h with ⟨t, scope, rfl, -⟩ | ⟨t, scope, -, -, -, rfl⟩
  · exact absurd rfl hschema
  · exact hg.addTuple _

theorem onlyTuples_finalize (hg : m.graph.OnlyTuples) (hschema : r.schema? ≠ some .modern) :
    (r.finalize m).1.graph.OnlyTuples := by
  cases r with
  | off => exact hg
  | typed t => exact absurd rfl hschema
  | tagged t =>
      rw [fst_finalize_tagged, TaggedRecorder.fst_finalize]
      dsimp only
      exact t.onlyTuples_finalGraph hg

theorem mem_keys_finalize (hschema : r.schema? ≠ some .modern)
    (h : name ∈ (r.finalize m).1.graph.named.keys) :
    name ∈ m.graph.named.keys ∨ name = TaggedRecorder.unitListName ∨
      name = ModuleFlag.listName := by
  cases r with
  | off => exact .inl h
  | typed t => exact absurd rfl hschema
  | tagged t =>
      rw [fst_finalize_tagged, TaggedRecorder.fst_finalize] at h
      dsimp only at h
      exact TaggedRecorder.mem_keys_finalGraph h

/-- The mark of a line by what is not typed leaves the cursor as it is. -/
theorem cursor_markLocation (hschema : r.schema? ≠ some .modern)
    (h : r.markLocation m c line = .ok (r', c', m', event)) : c' = c := by
  rcases markLocation_cases h with ⟨-, -, hc', -⟩ | ⟨t, scope, rfl, -⟩ |
    ⟨t, -, -, -, hc', -⟩ | ⟨t, scope, -, -, -, -, -, hc', -⟩
  · exact hc'
  · exact absurd rfl hschema
  · exact hc'
  · exact hc'

/-! What is not tagged emits nothing. -/

theorem blocks_markSubprogram
    (h : r.markSubprogram m function name line = .ok (r', m', event)) : m'.blocks = m.blocks := by
  rcases markSubprogram_cases h with
    ⟨-, -, rfl, -⟩ | ⟨t, f, -, -, -, hm', -⟩ | ⟨t, f, -, -, -, hm', -⟩
  · rfl
  · rw [hm']
    rfl
  · rw [hm', TaggedRecorder.module_addSubprogram]

theorem module_markLocation (hschema : r.schema? ≠ some .legacy)
    (h : r.markLocation m c line = .ok (r', c', m', event)) :
    m' = { m with graph := m'.graph } := by
  rcases markLocation_cases h with ⟨-, -, -, rfl, -⟩ | ⟨t, scope, -, -, -, -, rfl, -⟩ |
    ⟨t, rfl, -⟩ | ⟨t, scope, rfl, -⟩
  · rfl
  · rfl
  · exact absurd rfl hschema
  · exact absurd rfl hschema

end Recorder

end DebugMetadata

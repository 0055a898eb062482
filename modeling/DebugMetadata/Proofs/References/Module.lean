import DebugMetadata.Proofs.Permanence.Arenas
import DebugMetadata.Proofs.References.Graph

/-!
# References within a module

The handles that a command passes to a module and those that it gets back, and the modules
that resolve: everything that is referred to in them exists.  Such a module stays one if it
grows by something that refers only to what it has.
-/

namespace DebugMetadata

/-! ## What is referred to -/

def Value.reference? : Value → Option Reference
  | .const _ _ => none
  | .result instr => some (.instr instr)

def Callee.reference? : Callee → Option Reference
  | .function id => some (.function id)
  | .asm _ => none

/-- The function that an operation calls and the instructions whose results it uses. -/
def Operation.references : Operation → List Reference
  | .call callee args => callee.reference?.toList ++ args.filterMap (·.reference?)
  | .ret value => (value.bind (·.reference?)).toList

def CursorCommand.references : CursorCommand → List Reference
  | .moveTo block => [.block block]
  | .locate location => (location.map .node).toList
  | .emit operation => operation.references

def RecorderCommand.references : RecorderCommand → List Reference
  | .markSubprogram function _ _ => [.function function]
  | _ => []

/-- The handles that a command passes to the module. -/
def Command.references : Command → List Reference
  | .appendBlock function _ => [.function function]
  | .edit e => e.references
  | .attachToFunction function _ node => [.function function, .node node]
  | .attachToInstruction instr _ node => [.instr instr, .node node]
  | .openCursor block => [.block block]
  | .cursor _ command => command.references
  | .recorder _ command => command.references
  | .setSourceFilename _ | .addFunction _ _ | .addFlag _ | .createRecorder _ _ _ => []

/-- The handles that a command gets back from the module. -/
def Answer.references : Answer → List Reference
  | .function id => [.function id]
  | .block id => [.block id]
  | .instr id => [.instr id]
  | .node id => [.node id]
  | .list id => [.list id]
  | .location id => (id.map .node).toList
  | .done | .cursor _ | .recorder _ | .added _ => []

/-- Whether the module has what is referred to. -/
def Module.has (m : Module) : Reference → Bool
  | .function id => id.index < m.functions.size
  | .block id => id.index < m.blocks.size
  | .instr id => id.index < m.instructions.size
  | .node id => id.index < m.graph.size
  | .list id => id.index < m.graph.lists.size

/-! ## Resolves modules -/

/-- What the instruction refers to is there when a module has so many functions and nodes,
and the results that it uses are those of instructions before it. -/
structure Instruction.Resolves (i : Instruction) (functions nodes : Nat) (id : InstrId) : Prop where
  attachments : ∀ entry ∈ i.attachments.entries, entry.2.index < nodes
  location : ∀ node, i.location = some node → node.index < nodes
  callee : ∀ function, .function function ∈ i.operation.references → function.index < functions
  operands : ∀ other, .instr other ∈ i.operation.references → other.index < id.index

/-- Everything that is referred to in the module exists. -/
structure Module.Resolves (m : Module) : Prop where
  graph : m.graph.Resolves m.functions.size
  attachments : ∀ function f, m.function? function = some f →
    ∀ entry ∈ f.attachments.entries, entry.2.index < m.graph.size
  instructions : ∀ id i, m.instruction? id = some i →
    i.Resolves m.functions.size m.graph.size id

variable {m m' : Module} {ref : Reference}

theorem Instruction.Resolves.mono {i : Instruction} {functions nodes functions' nodes' : Nat}
    {id : InstrId} (h : i.Resolves functions nodes id) (hfunctions : functions ≤ functions')
    (hnodes : nodes ≤ nodes') : i.Resolves functions' nodes' id where
  attachments entry hentry := Nat.lt_of_lt_of_le (h.attachments entry hentry) hnodes
  location node hnode := Nat.lt_of_lt_of_le (h.location node hnode) hnodes
  callee function hfunction := Nat.lt_of_lt_of_le (h.callee function hfunction) hfunctions
  operands := h.operands

namespace Module

theorem has_mono (h : m.has ref = true) (hgrows : m.Grows m') : m'.has ref = true := by
  have hlt {n size size' : Nat} (h : decide (n < size) = true) (hle : size ≤ size') :
      decide (n < size') = true :=
    decide_eq_true (Nat.lt_of_lt_of_le (of_decide_eq_true h) hle)
  cases ref with
  | function id => exact hlt h hgrows.functions_size_le
  | block id => exact hlt h hgrows.blocks_size_le
  | instr id => exact hlt h hgrows.instructions_size_le
  | node id => exact hlt h hgrows.nodes.size_le
  | list id => exact hlt h hgrows.lists.size_le

theorem has_graph (h : m.has ref = true) : m.graph.Has m.functions.size ref := by
  cases ref with
  | node id => exact (of_decide_eq_true h : id.index < m.graph.size)
  | list id => exact (of_decide_eq_true h : id.index < m.graph.lists.size)
  | function id => exact (of_decide_eq_true h : id.index < m.functions.size)
  | block id => trivial
  | instr id => trivial

namespace Resolves

theorem empty (name : String) : ({ name } : Module).Resolves := by
  refine ⟨.empty 0, ?_, ?_⟩
  · intro function f hf
    cases hf
  · intro id i hi
    cases hi

/-- A graph that resolves may take the place of one that it grew from. -/
theorem of_graph (h : m.Resolves) {graph : Graph} (hgraph : graph.Resolves m.functions.size)
    (hle : m.graph.size ≤ graph.size) : { m with graph }.Resolves where
  graph := hgraph
  attachments function f hf entry hentry :=
    Nat.lt_of_lt_of_le (h.attachments function f hf entry hentry) hle
  instructions id i hi := (h.instructions id i hi).mono (Nat.le_refl _) hle

theorem pushFunction (h : m.Resolves) (name : String) (signature : Signature) :
    (m.pushFunction name signature).Resolves := by
  have hle : m.functions.size ≤ (m.pushFunction name signature).functions.size :=
    (m.grows_pushFunction name signature).functions_size_le
  refine ⟨h.graph.mono hle, ?_, fun id i hi => (h.instructions id i hi).mono hle (Nat.le_refl _)⟩
  intro function f hf
  change (m.functions.push _)[function.index]? = some f at hf
  rw [Array.getElem?_push] at hf
  split at hf
  · cases hf
    intro entry hentry
    cases hentry
  · exact h.attachments function f hf

theorem pushBlock (h : m.Resolves) (owner : FunctionId) (label : String) :
    (m.pushBlock owner label).Resolves := by
  have hsize : (m.pushBlock owner label).functions.size = m.functions.size := Array.size_modify
  refine ⟨?_, ?_, ?_⟩
  · rw [hsize]
    exact h.graph
  · intro function f hf
    change (m.functions.modify _ _)[function.index]? = some f at hf
    rw [Array.getElem?_modify] at hf
    split at hf
    · obtain ⟨old, hold, rfl⟩ := Option.map_eq_some_iff.mp hf
      exact h.attachments function old hold
    · exact h.attachments function f hf
  · rw [hsize]
    exact h.instructions

theorem pushInstruction (h : m.Resolves) {i : Instruction}
    (hi : i.Resolves m.functions.size m.graph.size ⟨m.instructions.size⟩) :
    (m.pushInstruction i).Resolves := by
  refine ⟨h.graph, h.attachments, ?_⟩
  intro id i' hi'
  rcases instruction?_push_cases hi' with ⟨rfl, rfl⟩ | hold
  · exact hi
  · exact h.instructions id i' hold

theorem attachToFunction (h : m.Resolves) (id : FunctionId) (key : String) {node : NodeId}
    (hnode : node.index < m.graph.size) : (m.attachToFunction id key node).Resolves := by
  have hsize : (m.attachToFunction id key node).functions.size = m.functions.size :=
    Array.size_modify
  refine ⟨?_, ?_, ?_⟩
  · rw [hsize]
    exact h.graph
  · intro function f hf entry hentry
    rw [function?_attachToFunction] at hf
    split at hf
    · obtain ⟨old, hold, rfl⟩ := Option.map_eq_some_iff.mp hf
      rcases Keyed.mem_entries_insert hentry with hkept | hnew
      · exact h.attachments function old hold entry hkept
      · rw [hnew]
        exact hnode
    · exact h.attachments function f hf entry hentry
  · rw [hsize]
    exact h.instructions

theorem attachToInstruction (h : m.Resolves) (id : InstrId) (key : String) {node : NodeId}
    (hnode : node.index < m.graph.size) : (m.attachToInstruction id key node).Resolves := by
  refine ⟨h.graph, h.attachments, ?_⟩
  intro other i hi
  rw [instruction?_attachToInstruction] at hi
  split at hi
  · obtain ⟨old, hold, rfl⟩ := Option.map_eq_some_iff.mp hi
    have hresolves := h.instructions other old hold
    refine ⟨?_, hresolves.location, hresolves.callee, hresolves.operands⟩
    intro entry hentry
    rcases Keyed.mem_entries_insert hentry with hkept | hnew
    · exact hresolves.attachments entry hkept
    · rw [hnew]
      exact hnode
  · exact h.instructions other i hi

end Resolves

end Module

end DebugMetadata

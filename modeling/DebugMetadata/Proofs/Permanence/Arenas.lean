import DebugMetadata.Proofs.Session.Steps

/-!
# What a module keeps

Nothing in a module ever goes away or moves.  What a handle stands for stays what it was,
and a list of handles only gets longer at its end.
-/

namespace DebugMetadata

/-- The second function is the first one at a later time: it may have more blocks and other
attachments. -/
structure Function.Grows (f f' : Function) : Prop where
  name : f.name = f'.name
  signature : f.signature = f'.signature
  blocks : f.blocks.toList <+: f'.blocks.toList

/-- The second block is the first one at a later time: it may have more instructions. -/
structure Block.Grows (b b' : Block) : Prop where
  label : b.label = b'.label
  function : b.function = b'.function
  instrs : b.instrs.toList <+: b'.instrs.toList

/-- The second instruction is the first one at a later time: it may have other
attachments. -/
structure Instruction.Stays (i i' : Instruction) : Prop where
  operation : i.operation = i'.operation
  block : i.block = i'.block
  location : i.location = i'.location

/-- The second module is the first one at a later time. -/
structure Module.Grows (m m' : Module) : Prop where
  nodes : m.graph.Extends m'.graph
  lists : m.graph.KeepsLists m'.graph
  named : m.graph.KeepsNamed m'.graph
  functions : InPlace Function.Grows m.functions.toList m'.functions.toList
  blocks : InPlace Block.Grows m.blocks.toList m'.blocks.toList
  instructions : InPlace Instruction.Stays m.instructions.toList m'.instructions.toList

theorem Function.Grows.refl (f : Function) : f.Grows f := ⟨rfl, rfl, List.prefix_refl _⟩

theorem Function.Grows.trans {f f' f'' : Function} (h : f.Grows f') (h' : f'.Grows f'') :
    f.Grows f'' :=
  ⟨h.name.trans h'.name, h.signature.trans h'.signature, h.blocks.trans h'.blocks⟩

theorem Block.Grows.refl (b : Block) : b.Grows b := ⟨rfl, rfl, List.prefix_refl _⟩

theorem Block.Grows.trans {b b' b'' : Block} (h : b.Grows b') (h' : b'.Grows b'') :
    b.Grows b'' :=
  ⟨h.label.trans h'.label, h.function.trans h'.function, h.instrs.trans h'.instrs⟩

theorem Instruction.Stays.refl (i : Instruction) : i.Stays i := ⟨rfl, rfl, rfl⟩

theorem Instruction.Stays.trans {i i' i'' : Instruction} (h : i.Stays i') (h' : i'.Stays i'') :
    i.Stays i'' :=
  ⟨h.operation.trans h'.operation, h.block.trans h'.block, h.location.trans h'.location⟩

namespace Module

variable {m m' m'' : Module}

namespace Grows

theorem refl (m : Module) : m.Grows m :=
  ⟨.refl _, .of_lists_eq rfl, .of_named_eq rfl, .refl Function.Grows.refl _,
    .refl Block.Grows.refl _, .refl Instruction.Stays.refl _⟩

theorem trans (h : m.Grows m') (h' : m'.Grows m'') : m.Grows m'' where
  nodes := h.nodes.trans h'.nodes
  lists := h.lists.trans h'.lists
  named := h.named.trans h'.named
  functions := h.functions.trans Function.Grows.trans h'.functions
  blocks := h.blocks.trans Block.Grows.trans h'.blocks
  instructions := h.instructions.trans Instruction.Stays.trans h'.instructions

theorem functions_size_le (h : m.Grows m') : m.functions.size ≤ m'.functions.size :=
  h.functions.length_le

theorem blocks_size_le (h : m.Grows m') : m.blocks.size ≤ m'.blocks.size :=
  h.blocks.length_le

theorem instructions_size_le (h : m.Grows m') : m.instructions.size ≤ m'.instructions.size :=
  h.instructions.length_le

theorem named_keys (h : m.Grows m') : m.graph.named.keys <+: m'.graph.named.keys :=
  h.named.map_isPrefix fun _ _ hlist => hlist.1

theorem function? (h : m.Grows m') {id : FunctionId} {f : Function}
    (hf : m.function? id = some f) : ∃ f', m'.function? id = some f' ∧ f.Grows f' := by
  rw [Module.function?, ← Array.getElem?_toList] at hf
  obtain ⟨f', hf', hgrows⟩ := h.functions id.index f hf
  rw [Array.getElem?_toList] at hf'
  exact ⟨f', hf', hgrows⟩

theorem instruction? (h : m.Grows m') {id : InstrId} {i : Instruction}
    (hi : m.instruction? id = some i) : ∃ i', m'.instruction? id = some i' ∧ i.Stays i' := by
  rw [Module.instruction?, ← Array.getElem?_toList] at hi
  obtain ⟨i', hi', hstays⟩ := h.instructions id.index i hi
  rw [Array.getElem?_toList] at hi'
  exact ⟨i', hi', hstays⟩

end Grows

/-! ## Steps -/

theorem grows_pushFunction (m : Module) (name : String) (signature : Signature) :
    m.Grows (m.pushFunction name signature) := by
  refine { Grows.refl m with functions := ?_ }
  change InPlace _ _ (m.functions.push _).toList
  rw [Array.toList_push]
  exact .concat Function.Grows.refl _ _

theorem grows_pushBlock (m : Module) (function : FunctionId) (label : String) :
    m.Grows (m.pushBlock function label) := by
  refine { Grows.refl m with functions := ?_, blocks := ?_ }
  · change InPlace _ _ (m.functions.modify _ _).toList
    rw [Array.toList_modify]
    refine .modify Function.Grows.refl ?_ _ _
    intro f
    refine ⟨rfl, rfl, ?_⟩
    rw [Array.toList_push]
    exact List.prefix_append _ _
  · change InPlace _ _ (m.blocks.push _).toList
    rw [Array.toList_push]
    exact .concat Block.Grows.refl _ _

theorem grows_pushInstruction (m : Module) (i : Instruction) :
    m.Grows (m.pushInstruction i) := by
  refine { Grows.refl m with blocks := ?_, instructions := ?_ }
  · change InPlace _ _ (m.blocks.modify _ _).toList
    rw [Array.toList_modify]
    refine .modify Block.Grows.refl ?_ _ _
    intro b
    refine ⟨rfl, rfl, ?_⟩
    rw [Array.toList_push]
    exact List.prefix_append _ _
  · change InPlace _ _ (m.instructions.push _).toList
    rw [Array.toList_push]
    exact .concat Instruction.Stays.refl _ _

theorem grows_attachToFunction (m : Module) (id : FunctionId) (key : String) (node : NodeId) :
    m.Grows (m.attachToFunction id key node) := by
  refine { Grows.refl m with functions := ?_ }
  change InPlace _ _ (m.functions.modify _ _).toList
  rw [Array.toList_modify]
  refine .modify Function.Grows.refl ?_ _ _
  exact fun f => ⟨rfl, rfl, List.prefix_refl _⟩

theorem grows_attachToInstruction (m : Module) (id : InstrId) (key : String) (node : NodeId) :
    m.Grows (m.attachToInstruction id key node) := by
  refine { Grows.refl m with instructions := ?_ }
  change InPlace _ _ (m.instructions.modify _ _).toList
  rw [Array.toList_modify]
  refine .modify Instruction.Stays.refl ?_ _ _
  exact fun i => ⟨rfl, rfl, rfl⟩

theorem Step.grows (h : m.Step m') : m.Grows m' := by
  cases h with
  | filename filename => exact { Grows.refl m with }
  | function name signature => exact m.grows_pushFunction name signature
  | block label hlt => exact m.grows_pushBlock _ label
  | instruction hlt => exact m.grows_pushInstruction _
  | attachToFunction function key node => exact m.grows_attachToFunction function key node
  | attachToInstruction instr key node => exact m.grows_attachToInstruction instr key node
  | graph hgrows hnamed =>
      exact { Grows.refl m with nodes := hgrows.nodes, lists := hgrows.lists, named := hnamed }

theorem Steps.grows (h : m.Steps m') : m.Grows m' := by
  induction h with
  | refl => exact .refl m
  | tail _ hstep ih => exact ih.trans hstep.grows

end Module

end DebugMetadata

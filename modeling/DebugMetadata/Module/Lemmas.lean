import DebugMetadata.Module.Cursor

/-!
# Lookups after growth

What each operation that changes a module does to the lookups by handle.
-/

namespace DebugMetadata.Module

variable {m m' : Module}

/-! ## Functions -/

theorem function?_of_addFunction {name : String} {signature : Signature} {id : FunctionId}
    (h : m.addFunction name signature = .ok (id, m')) (other : FunctionId) :
    m'.function? other =
      if other = id then some { name, signature } else m.function? other := by
  unfold addFunction at h
  split at h
  · cases h
  · cases h
    cases other
    simp [function?, Array.getElem?_push]

theorem function?_of_appendBlock? {function : FunctionId} {label : String} {id : BlockId}
    (h : m.appendBlock? function label = some (id, m')) (other : FunctionId) :
    m'.function? other =
      if other = function then
        (m.function? other).map fun f => { f with blocks := f.blocks.push id }
      else m.function? other := by
  unfold appendBlock? at h
  split at h
  · cases h
    cases other
    cases function
    simp [function?, Array.getElem?_modify, eq_comm]
  · cases h

theorem function?_attachToFunction (m : Module) (id other : FunctionId) (key : String)
    (node : NodeId) :
    (m.attachToFunction id key node).function? other =
      if other = id then (m.function? other).map (·.attach key node)
      else m.function? other := by
  cases id
  cases other
  simp [attachToFunction, function?, Array.getElem?_modify, eq_comm]

/-! ## Blocks -/

theorem block?_of_appendBlock? {function : FunctionId} {label : String} {id : BlockId}
    (h : m.appendBlock? function label = some (id, m')) (other : BlockId) :
    m'.block? other = if other = id then some { label, function } else m.block? other := by
  unfold appendBlock? at h
  split at h
  · cases h
    cases other
    simp [block?, Array.getElem?_push]
  · cases h

theorem block?_of_appendInstruction? {instruction : Instruction} {id : InstrId}
    (h : m.appendInstruction? instruction = some (id, m')) (other : BlockId) :
    m'.block? other =
      if other = instruction.block then
        (m.block? other).map fun b => { b with instrs := b.instrs.push id }
      else m.block? other := by
  obtain ⟨operation, ⟨index⟩, location, attachments⟩ := instruction
  unfold appendInstruction? at h
  split at h
  · cases h
    cases other
    simp [block?, Array.getElem?_modify, eq_comm]
  · cases h

/-! ## Instructions -/

theorem instruction?_of_appendInstruction? {instruction : Instruction} {id : InstrId}
    (h : m.appendInstruction? instruction = some (id, m')) (other : InstrId) :
    m'.instruction? other =
      if other = id then some instruction else m.instruction? other := by
  unfold appendInstruction? at h
  split at h
  · cases h
    cases other
    simp [instruction?, Array.getElem?_push]
  · cases h

theorem instruction?_attachToInstruction (m : Module) (id other : InstrId) (key : String)
    (node : NodeId) :
    (m.attachToInstruction id key node).instruction? other =
      if other = id then (m.instruction? other).map (·.attach key node)
      else m.instruction? other := by
  cases id
  cases other
  simp [attachToInstruction, instruction?, Array.getElem?_modify, eq_comm]

end DebugMetadata.Module

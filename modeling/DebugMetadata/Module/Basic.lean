import DebugMetadata.Code.Instruction
import DebugMetadata.Fault
import DebugMetadata.Graph.Basic

/-!
# Modules

A module owns the arenas of functions, blocks and instructions and the metadata
graph.  The arenas only grow, so a handle keeps its meaning.  A function is also
found by its name, which no other function of the module has.
-/

namespace DebugMetadata

/-- A module of code and metadata. -/
structure Module where
  name : String
  sourceFilename : Option String := none
  functions : Array Function := #[]
  functionIndex : Std.HashMap String FunctionId := ∅
  blocks : Array Block := #[]
  instructions : Array Instruction := #[]
  graph : Graph := ∅

namespace Module

/-! ## Lookups -/

def function? (m : Module) (id : FunctionId) : Option Function := m.functions[id.index]?

def block? (m : Module) (id : BlockId) : Option Block := m.blocks[id.index]?

def instruction? (m : Module) (id : InstrId) : Option Instruction :=
  m.instructions[id.index]?

def findFunction? (m : Module) (name : String) : Option FunctionId :=
  m.functionIndex[name]?

/-- The instructions of a function, block after block. -/
def functionInstrs? (m : Module) (id : FunctionId) : Option (List InstrId) := do
  let function ← m.function? id
  let blocks ← function.blocks.toList.mapM m.block?
  return blocks.flatMap (·.instrs.toList)

def operationType? (m : Module) : Operation → Option Ty
  | .call (.function callee) _ => (m.function? callee).map (·.signature.result)
  | .call (.asm fragment) _ => some fragment.signature.result
  | .ret _ => some .void

def resultType? (m : Module) (id : InstrId) : Option Ty := do
  let instruction ← m.instruction? id
  m.operationType? instruction.operation

def valueType? (m : Module) : Value → Option Ty
  | .const ty _ => some ty
  | .result instr => m.resultType? instr

/-! ## Growth -/

/-- Declares a function.  A name that is taken is refused. -/
def addFunction (m : Module) (name : String) (signature : Signature) :
    Except Fault (FunctionId × Module) :=
  if m.functionIndex.contains name then .error (.duplicateFunction name)
  else
    let id : FunctionId := ⟨m.functions.size⟩
    .ok (id,
      { m with
        functions := m.functions.push { name, signature }
        functionIndex := m.functionIndex.insert name id })

/-- Appends a block to a function, which is a definition from then on. -/
def appendBlock? (m : Module) (function : FunctionId) (label : String) :
    Option (BlockId × Module) :=
  if function.index < m.functions.size then
    let id : BlockId := ⟨m.blocks.size⟩
    some (id,
      { m with
        blocks := m.blocks.push { label, function }
        functions := m.functions.modify function.index fun f =>
          { f with blocks := f.blocks.push id } })
  else none

def appendInstruction? (m : Module) (instruction : Instruction) :
    Option (InstrId × Module) :=
  if instruction.block.index < m.blocks.size then
    let id : InstrId := ⟨m.instructions.size⟩
    some (id,
      { m with
        instructions := m.instructions.push instruction
        blocks := m.blocks.modify instruction.block.index fun b =>
          { b with instrs := b.instrs.push id } })
  else none

/-! ## Attachments -/

/-- Attaches a node to a function.  A dangling handle changes nothing. -/
def attachToFunction (m : Module) (id : FunctionId) (key : String) (node : NodeId) :
    Module :=
  { m with functions := m.functions.modify id.index (·.attach key node) }

/-- Attaches a node to an instruction.  A dangling handle changes nothing. -/
def attachToInstruction (m : Module) (id : InstrId) (key : String) (node : NodeId) :
    Module :=
  { m with instructions := m.instructions.modify id.index (·.attach key node) }

end Module

end DebugMetadata

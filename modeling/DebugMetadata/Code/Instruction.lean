import DebugMetadata.Code.Type
import DebugMetadata.Handle
import DebugMetadata.Keyed

/-!
# Code

Functions are made of blocks, and blocks of instructions.  A block knows its
function and an instruction its block, so that each can be reached from both
sides.  Functions and instructions carry attachments: metadata nodes under text
keys, each key at most once.  The location of an instruction is not one of its
attachments, even where an attachment has the key that locations are written
under.
-/

namespace DebugMetadata

/-- Metadata nodes under text keys, in the order in which the keys were first
used. -/
abbrev Attachments := Keyed NodeId

/-- A value that an instruction uses. -/
inductive Value where
  | const (ty : Ty) (value : Int)
  | result (instr : InstrId)
  deriving DecidableEq, Repr

/-- A fragment of assembly text that can be called. -/
structure InlineAsm where
  signature : Signature
  text : String
  constraints : String
  /-- Whether the call must be kept even if its result is not used. -/
  sideEffect : Bool
  deriving DecidableEq, Repr

/-- What a call calls. -/
inductive Callee where
  | function (id : FunctionId)
  | asm (fragment : InlineAsm)
  deriving DecidableEq, Repr

/-- What an instruction does. -/
inductive Operation where
  | call (callee : Callee) (args : List Value)
  | ret (value : Option Value)
  deriving DecidableEq, Repr

namespace Operation

def values : Operation → List Value
  | .call _ args => args
  | .ret value => value.toList

def isAsmCall : Operation → Bool
  | .call (.asm _) _ => true
  | _ => false

end Operation

/-- An instruction in its place. -/
structure Instruction where
  operation : Operation
  block : BlockId
  location : Option NodeId
  attachments : Attachments := ∅
  deriving DecidableEq, Repr

/-- Attaches a node to an instruction, in the place of the node that was attached
under the key before. -/
def Instruction.attach (i : Instruction) (key : String) (node : NodeId) : Instruction :=
  { i with attachments := i.attachments.insert key node }

/-- A block of a function. -/
structure Block where
  label : String
  function : FunctionId
  instrs : Array InstrId := #[]
  deriving DecidableEq, Repr

/-- A function.  Without blocks it is a declaration. -/
structure Function where
  name : String
  signature : Signature
  blocks : Array BlockId := #[]
  attachments : Attachments := ∅
  deriving DecidableEq, Repr

namespace Function

def isDeclaration (f : Function) : Bool := f.blocks.isEmpty

/-- Attaches a node to a function, in the place of the node that was attached
under the key before. -/
def attach (f : Function) (key : String) (node : NodeId) : Function :=
  { f with attachments := f.attachments.insert key node }

end Function

end DebugMetadata

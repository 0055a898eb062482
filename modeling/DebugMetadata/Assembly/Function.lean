import DebugMetadata.Assembly.Node
import DebugMetadata.Module.Cursor

/-!
# Functions in assembly text

A declaration is one line.  A definition has its blocks between braces, with an
empty line between two of them.  Inside a definition values have numbers: the
parameters take the first ones, and the instructions that yield a value take the
next ones in the order in which they are written.
-/

namespace DebugMetadata.Assembly

open Text (decimal)
open Text.Quoted (literal)

/-- The numbers of the values of one function. -/
structure Numbering where
  params : Nat
  /-- The instructions that yield a value, in the order of their numbers. -/
  results : List InstrId

def Numbering.number? (n : Numbering) (id : InstrId) : Option Nat :=
  (n.results.idxOf? id).map (n.params + ·)

def yieldsValue (m : Module) (id : InstrId) : Bool :=
  (m.resultType? id).any (· != .void)

/-- The numbers of the values of a function with the given instructions. -/
def numbering (m : Module) (f : Function) (instrs : List InstrId) : Numbering :=
  ⟨f.signature.params.length, instrs.filter (yieldsValue m)⟩

/-- The written form of a value without its type.  A result that has no number in
the function is undefined there. -/
def bareValue (n : Numbering) : Value → String
  | .const _ value => decimal value
  | .result instr =>
    match n.number? instr with
    | some number => "%" ++ number.repr
    | none => "undef"

def value? (m : Module) (n : Numbering) (v : Value) : Option String := do
  let ty ← m.valueType? v
  return ty.text ++ " " ++ bareValue n v

def callee? (m : Module) : Callee → Option String
  | .function id => (m.function? id).map fun f => "@" ++ f.name
  | .asm fragment =>
    some ("asm" ++ (if fragment.sideEffect then " sideeffect " else " ") ++
      literal fragment.text ++ ", " ++ literal fragment.constraints)

/-- The number that takes the result of an instruction, if it has one. -/
def assignment (n : Numbering) (id : InstrId) : String :=
  match n.number? id with
  | some number => "%" ++ number.repr ++ " = "
  | none => ""

/-- The written form of what the instruction under a handle does. -/
def operation? (m : Module) (n : Numbering) (id : InstrId) : Operation → Option String
  | .call callee args => do
    let ty ← m.operationType? (.call callee args)
    let target ← callee? m callee
    let values ← args.mapM (value? m n)
    return assignment n id ++ "call " ++ ty.text ++ " " ++ target ++ "(" ++
      commaSeparated values ++ ")"
  | .ret none => some "ret void"
  | .ret (some v) => (value? m n v).map ("ret " ++ ·)

def attachment (entry : String × NodeId) : String :=
  "!" ++ entry.1 ++ " " ++ nodeRef entry.2

/-- What is written after an instruction: its location under the key `dbg`, and
then its attachments. -/
def slots (i : Instruction) : List (String × NodeId) :=
  (i.location.map ("dbg", ·)).toList ++ i.attachments.entries

def instruction? (m : Module) (n : Numbering) (id : InstrId) : Option String := do
  let instruction ← m.instruction? id
  let operation ← operation? m n id instruction.operation
  return "  " ++ operation ++
    String.join ((slots instruction).map fun entry => ", " ++ attachment entry)

def block? (m : Module) (n : Numbering) (b : Block) : Option (List String) := do
  let instructions ← b.instrs.toList.mapM (instruction? m n)
  return (b.label ++ ":") :: instructions

def header (f : Function) : String :=
  (if f.isDeclaration then "declare " else "define ") ++ f.signature.result.text ++
    " @" ++ f.name ++ f.signature.paramsText ++
    String.join (f.attachments.entries.map fun entry => " " ++ attachment entry)

def function? (m : Module) (f : Function) : Option (List String) :=
  if f.isDeclaration then some [header f]
  else do
    let blocks ← f.blocks.toList.mapM m.block?
    let n := numbering m f (blocks.flatMap (·.instrs.toList))
    let bodies ← blocks.mapM (block? m n)
    return [header f ++ " \x7b"] ++ [""].intercalate bodies ++ ["\x7d"]

end DebugMetadata.Assembly

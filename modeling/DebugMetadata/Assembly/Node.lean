import DebugMetadata.Module.Basic
import DebugMetadata.Text.Decimal
import DebugMetadata.Text.Quoted

/-!
# Metadata in assembly text

Every node and every growable list has a number: the nodes by their index, and
the lists after all nodes.  A definition line says what a number stands for, and
a reference is a number by itself, so neither a dangling node nor a dangling list
keeps a module from being written.  An operand that is a function is written
with its signature and name and needs the function to exist.
-/

namespace DebugMetadata.Assembly

open Text (decimal)
open Text.Quoted (literal)

def commaSeparated (items : List String) : String := ", ".intercalate items

def numberRef (number : Nat) : String := "!" ++ number.repr

def nodeRef (id : NodeId) : String := numberRef id.index

/-- The written form of a tuple with the written operands. -/
def tuple (items : List String) : String := "!\x7b" ++ commaSeparated items ++ "\x7d"

def nodeTuple (ids : Array NodeId) : String := tuple (ids.toList.map nodeRef)

def listNumber (g : Graph) (id : ListId) : Nat := g.size + id.index

def boolWord : Bool → String
  | true => "true"
  | false => "false"

/-- The written form of an integer of a bit width.  One bit is written as a truth
value. -/
def integer (bits : Nat) (value : Int) : String :=
  "i" ++ bits.repr ++ " " ++ if bits = 1 then boolWord (value != 0) else decimal value

def operand? (m : Module) : Operand → Option String
  | .int bits value => some (integer bits value)
  | .str text => some ("!" ++ literal text)
  | .node id => some (nodeRef id)
  | .null => some "null"
  | .function id =>
    (m.function? id).map fun f => f.signature.text ++ "* @" ++ f.name
  | .list id => some (numberRef (listNumber m.graph id))

def fieldValue : FieldValue → String
  | .int value => decimal value
  | .bool value => boolWord value
  | .str text => literal text
  | .token name => name
  | .node id => nodeRef id

def debugNode (content : DebugNode) (distinct : Bool) : String :=
  (if distinct then "distinct " else "") ++ "!" ++ content.kind.name ++ "(" ++
    commaSeparated (content.fields.map fun field => field.1 ++ ": " ++ fieldValue field.2) ++
    ")"

def node? (m : Module) : Node → Option String
  | .tuple operands => do
    let items ← operands.mapM (operand? m)
    return tuple items
  | .debug content distinct => some (debugNode content distinct)

def definition (number : Nat) (body : String) : String :=
  numberRef number ++ " = " ++ body

/-- The definitions of a module's nodes and then of its growable lists, which are
written with the content they have by now. -/
def definitions? (m : Module) : Option (List String) := do
  let nodes ← m.graph.nodes.toList.mapM (node? m)
  let lists := m.graph.lists.toList.map nodeTuple
  return (nodes ++ lists).mapIdx definition

def namedLists (g : Graph) : List String :=
  g.named.entries.map fun entry => "!" ++ entry.1 ++ " = " ++ nodeTuple entry.2

end DebugMetadata.Assembly

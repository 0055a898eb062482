import DebugMetadata.Handle

/-!
# Metadata nodes

A node is a tuple of operands or a debug node, which has a kind and named
fields.  Nodes refer to each other by handle, so a node is a finite value and
equality of nodes is equality of what is written in them.
-/

namespace DebugMetadata

/-- One operand of a tuple. -/
inductive Operand where
  /-- An integer of a bit width.  The value need not fit the width. -/
  | int (bits : Nat) (value : Int)
  | str (text : String)
  | node (id : NodeId)
  /-- An empty slot. -/
  | null
  | function (id : FunctionId)
  /-- A growable list, by handle and not by content. -/
  | list (id : ListId)
  deriving DecidableEq, Hashable, Repr

namespace Operand

def i32 (value : Int) : Operand := .int 32 value

def i64 (value : Int) : Operand := .int 64 value

def i1 (value : Bool) : Operand := .int 1 (if value then 1 else 0)

end Operand

/-- The kind of a debug node. -/
inductive NodeKind where
  | file
  | compileUnit
  | subprogram
  | subroutineType
  | location
  deriving DecidableEq, Hashable, Repr

def NodeKind.name : NodeKind → String
  | .file => "DIFile"
  | .compileUnit => "DICompileUnit"
  | .subprogram => "DISubprogram"
  | .subroutineType => "DISubroutineType"
  | .location => "DILocation"

/-- The value of a field. -/
inductive FieldValue where
  | int (value : Int)
  | bool (value : Bool)
  | str (text : String)
  /-- A bare enumerator, such as a language's. -/
  | token (name : String)
  | node (id : NodeId)
  deriving DecidableEq, Hashable, Repr

/-- A kind and its fields, in the order in which they are written.  A name may
occur more than once. -/
structure DebugNode where
  kind : NodeKind
  fields : List (String × FieldValue)
  deriving DecidableEq, Hashable, Repr

def DebugNode.field? (node : DebugNode) (name : String) : Option FieldValue :=
  (node.fields.find? fun field => field.1 == name).map Prod.snd

/-- A node of the graph. -/
inductive Node where
  | tuple (operands : List Operand)
  /-- A debug node.  A distinct one is identified by its place in the graph and
  not by its content. -/
  | debug (content : DebugNode) (distinct : Bool)
  deriving DecidableEq, Hashable, Repr

namespace Node

/-- Whether the node is identified by its place in the graph. -/
def isDistinct : Node → Bool
  | .tuple _ => false
  | .debug _ distinct => distinct

/-- The first field of a name, if the node is a debug node with such a field. -/
def field? : Node → String → Option FieldValue
  | .tuple _, _ => none
  | .debug content _, name => content.field? name

end Node

end DebugMetadata

import DebugMetadata.Proofs.Report.Basic
import Mathlib.Data.List.Forall2

/-!
# Reading debug info back

What a consumer finds in the metadata graph of a module, for typed nodes and for
tagged tuples.  A reader starts from the named list of compile units, follows the
handles and fails where something is missing or of another form.
-/

namespace DebugMetadata

/-! ## Languages -/

namespace Language

def all : List Language := [.c, .c99, .python]

def ofToken? (token : String) : Option Language := all.find? fun l => l.token == token

def ofCode? (code : Int) : Option Language := all.find? fun l => l.code == code

theorem ofToken?_token (l : Language) : ofToken? l.token = some l := by
  cases l <;> rfl

theorem ofCode?_code (l : Language) : ofCode? l.code = some l := by
  cases l <;> rfl

end Language

/-! ## Parts of nodes -/

namespace DebugNode

def int? (node : DebugNode) (name : String) : Option Int :=
  match node.field? name with
  | some (.int value) => some value
  | _ => none

def bool? (node : DebugNode) (name : String) : Option Bool :=
  match node.field? name with
  | some (.bool value) => some value
  | _ => none

def str? (node : DebugNode) (name : String) : Option String :=
  match node.field? name with
  | some (.str text) => some text
  | _ => none

def token? (node : DebugNode) (name : String) : Option String :=
  match node.field? name with
  | some (.token token) => some token
  | _ => none

def node? (node : DebugNode) (name : String) : Option NodeId :=
  match node.field? name with
  | some (.node id) => some id
  | _ => none

end DebugNode

namespace Operand

def i32? : Operand → Option Int
  | .int 32 value => some value
  | _ => none

/-- The truth value that an integer of one bit stands for. -/
def i1? : Operand → Option Bool
  | .int 1 value => some (value != 0)
  | _ => none

def str? : Operand → Option String
  | .str text => some text
  | _ => none

def node? : Operand → Option NodeId
  | .node id => some id
  | _ => none

def list? : Operand → Option ListId
  | .list id => some id
  | _ => none

theorem i1?_i1 (value : Bool) : (i1 value).i1? = some value := by
  cases value <;> rfl

end Operand

namespace Graph

/-- The debug node of a kind under a handle. -/
def debug? (g : Graph) (kind : NodeKind) (id : NodeId) : Option DebugNode :=
  match g.node? id with
  | some (.debug content _) => if content.kind = kind then some content else none
  | _ => none

def tuple? (g : Graph) (id : NodeId) : Option (List Operand) :=
  match g.node? id with
  | some (.tuple operands) => some operands
  | _ => none

end Graph

theorem mapM_of_forall₂ {α β γ : Type} {R : α → β → Prop} {read? : α → Option γ} {f : β → γ}
    {l : List α} {l' : List β} (h : List.Forall₂ R l l')
    (hread : ∀ a b, R a b → read? a = some (f b)) : l.mapM read? = some (l'.map f) := by
  induction h with
  | nil => rfl
  | cons hab _ ih =>
      rw [List.mapM_cons, hread _ _ hab, ih]
      rfl

/-! ## Typed nodes -/

namespace TypedRecorder

def readFile? (g : Graph) (id : NodeId) : Option SourceFile := do
  let node ← g.debug? .file id
  let directory ← node.str? "directory"
  let filename ← node.str? "filename"
  return { directory, filename }

def readSubprogram? (g : Graph) (node : DebugNode) : Option SubprogramRecord := do
  let name ← node.str? "name"
  let linkageName ← node.str? "linkageName"
  let line ← node.int? "line"
  let scopeLine ← node.int? "scopeLine"
  let optimized ← node.bool? "isOptimized"
  let file ← node.node? "file"
  let source ← readFile? g file
  return { name, linkageName, line, scopeLine, optimized, source }

/-- The content of a node that is a subprogram of a compile unit. -/
def subprogramOf? (unit : NodeId) : Node → Option DebugNode
  | .debug content _ =>
    if content.kind = .subprogram ∧ content.node? "unit" = some unit then some content else none
  | .tuple _ => none

/-- The subprograms of a compile unit in the order of the graph. -/
def subprogramsOf (g : Graph) (unit : NodeId) : List DebugNode :=
  g.nodes.toList.filterMap (subprogramOf? unit)

def read? (g : Graph) : Option UnitRecord :=
  match (g.namedNodes unitListName).toList with
  | [unit] => do
    let node ← g.debug? .compileUnit unit
    let file ← node.node? "file"
    let source ← readFile? g file
    let token ← node.token? "language"
    let language ← Language.ofToken? token
    let producer ← node.str? "producer"
    let optimized ← node.bool? "isOptimized"
    let subprograms ← (subprogramsOf g unit).mapM (readSubprogram? g)
    return { source, language, producer, optimized, subprograms }
  | _ => none

end TypedRecorder

/-! ## Tagged tuples -/

namespace TaggedRecorder

/-- Reads the pair of a file's name and directory. -/
def readPair? (g : Graph) (id : NodeId) : Option SourceFile :=
  match g.tuple? id with
  | some [.str filename, .str directory] => some { directory, filename }
  | _ => none

/-- Reads the tuple under a handle, if it begins with a tag. -/
def tagged? (g : Graph) (entry : Int) (id : NodeId) : Option (List Operand) := do
  let operands ← g.tuple? id
  if operands.head? = some (.i32 entry) then some operands else none

theorem tagged?_of_node? {g : Graph} {entry : Int} {id : NodeId} {operands : List Operand}
    (hnode : g.node? id = some (.tuple operands)) (hhead : operands.head? = some (.i32 entry)) :
    tagged? g entry id = some operands := by
  simp only [tagged?, Graph.tuple?, hnode, Option.bind_eq_bind, Option.bind_some]
  exact if_pos hhead

def readSubprogram? (g : Graph) (id : NodeId) : Option SubprogramRecord := do
  let operands ← tagged? g subprogramTag id
  let pair ← operands[1]?.bind Operand.node?
  let source ← readPair? g pair
  let name ← operands[3]?.bind Operand.str?
  let linkageName ← operands[5]?.bind Operand.str?
  let line ← operands[6]?.bind Operand.i32?
  let optimized ← operands[14]?.bind Operand.i1?
  let scopeLine ← operands[19]?.bind Operand.i32?
  return { name, linkageName, line, scopeLine, optimized, source }

def read? (g : Graph) : Option UnitRecord :=
  match (g.namedNodes unitListName).toList with
  | [unit] => do
    let operands ← tagged? g unitTag unit
    let pair ← operands[1]?.bind Operand.node?
    let source ← readPair? g pair
    let code ← operands[2]?.bind Operand.i32?
    let language ← Language.ofCode? code
    let producer ← operands[3]?.bind Operand.str?
    let optimized ← operands[4]?.bind Operand.i1?
    let list ← operands[unitSubprogramsPlace]?.bind Operand.list?
    let ids ← g.list? list
    let subprograms ← ids.toList.mapM (readSubprogram? g)
    return { source, language, producer, optimized, subprograms }
  | _ => none

end TaggedRecorder

end DebugMetadata

import DebugMetadata.Graph.NamedLists
import DebugMetadata.Graph.Node

/-!
# The metadata graph

An arena of nodes that only grows.  Adding a node that is not distinct returns
the handle of an equal node if there is one, which one index of the tuples and
one of the debug nodes find without a search.  Beside the nodes the graph holds
growable lists, which keep their handle while nodes are pushed to them, and named
lists, which come to be when a node is first added under their name.
-/

namespace DebugMetadata

/-- A metadata graph. -/
structure Graph where
  nodes : Array Node := #[]
  /-- The handle of every tuple. -/
  sharedTuples : Std.HashMap (List Operand) NodeId := ∅
  /-- The handle of every debug node that is not distinct. -/
  sharedDebugs : Std.HashMap DebugNode NodeId := ∅
  lists : Array (Array NodeId) := #[]
  named : NamedLists := ∅

namespace Graph

instance : EmptyCollection Graph := ⟨{}⟩

instance : Inhabited Graph := ⟨∅⟩

def size (g : Graph) : Nat := g.nodes.size

def node? (g : Graph) (id : NodeId) : Option Node := g.nodes[id.index]?

def list? (g : Graph) (id : ListId) : Option (Array NodeId) := g.lists[id.index]?

def namedNodes (g : Graph) (name : String) : Array NodeId := (g.named.find? name).getD #[]

def append (g : Graph) (node : Node) : NodeId × Graph :=
  (⟨g.size⟩, { g with nodes := g.nodes.push node })

/-- Adds a tuple if the graph has no equal one. -/
def addTuple (g : Graph) (operands : List Operand) : NodeId × Graph :=
  match g.sharedTuples[operands]? with
  | some id => (id, g)
  | none =>
    let (id, g) := g.append (.tuple operands)
    (id, { g with sharedTuples := g.sharedTuples.insert operands id })

/-- Adds a debug node.  One that is not distinct is added only if the graph has no
equal one. -/
def addDebug (g : Graph) (content : DebugNode) (distinct : Bool) : NodeId × Graph :=
  if distinct then g.append (.debug content distinct)
  else
    match g.sharedDebugs[content]? with
    | some id => (id, g)
    | none =>
      let (id, g) := g.append (.debug content distinct)
      (id, { g with sharedDebugs := g.sharedDebugs.insert content id })

def add (g : Graph) : Node → NodeId × Graph
  | .tuple operands => g.addTuple operands
  | .debug content distinct => g.addDebug content distinct

def newList (g : Graph) : ListId × Graph :=
  (⟨g.lists.size⟩, { g with lists := g.lists.push #[] })

/-- Pushes a node to a growable list.  A dangling handle changes nothing. -/
def pushToList (g : Graph) (list : ListId) (node : NodeId) : Graph :=
  { g with lists := g.lists.modify list.index (·.push node) }

def addNamed (g : Graph) (name : String) (node : NodeId) : Graph :=
  { g with named := g.named.add name node }

theorem node?_append (g : Graph) (node : Node) (id : NodeId) :
    (g.append node).2.node? id =
      if id.index = g.size then some node else g.node? id :=
  Array.getElem?_push

theorem list?_newList (g : Graph) (id : ListId) :
    g.newList.2.list? id = if id.index = g.lists.size then some #[] else g.list? id :=
  Array.getElem?_push

theorem list?_pushToList (g : Graph) (list id : ListId) (node : NodeId) :
    (g.pushToList list node).list? id =
      if id = list then (g.list? id).map (·.push node) else g.list? id := by
  cases id
  cases list
  simp [pushToList, list?, Array.getElem?_modify, eq_comm]

end Graph

end DebugMetadata

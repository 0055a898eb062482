import DebugMetadata.Answer
import DebugMetadata.Fault
import DebugMetadata.Graph.Basic

/-!
# Edits

The calls that change a graph, as values, and what each of them does.
-/

namespace DebugMetadata.Graph

/-- A call that changes a graph. -/
inductive Edit where
  | add (node : Node)
  | newList
  | pushToList (list : ListId) (node : NodeId)
  | addNamed (name : String) (node : NodeId)
  deriving DecidableEq, Repr

/-- Performs an edit.  Only a push to a list that does not exist fails. -/
def perform (g : Graph) : Edit → Except Fault (Answer × Graph)
  | .add node =>
    let (id, g) := g.add node
    .ok (.node id, g)
  | .newList =>
    let (id, g) := g.newList
    .ok (.list id, g)
  | .pushToList list node =>
    if (g.list? list).isSome then .ok (.done, g.pushToList list node)
    else .error .dangling
  | .addNamed name node => .ok (.done, g.addNamed name node)

/-- Performs edits one after another, up to the first that fails. -/
def run (g : Graph) : List Edit → List (Except Fault Answer) × Graph
  | [] => ([], g)
  | edit :: rest =>
    match g.perform edit with
    | .ok (answer, g) =>
      let (answers, g) := g.run rest
      (.ok answer :: answers, g)
    | .error fault => ([.error fault], g)

end DebugMetadata.Graph

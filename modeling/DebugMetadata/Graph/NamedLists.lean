import DebugMetadata.Handle
import Std.Data.HashMap

/-!
# Named lists

Lists of nodes under names, in the order in which the names were first used.  An
index tells the place of the list of each name, so that no list is searched for.
-/

namespace DebugMetadata

/-- Lists of nodes under names, and where the list of each name is. -/
structure NamedLists where
  /-- The lists in the order in which their names were first used. -/
  entries : List (String × Array NodeId) := []
  /-- The place of the list of a name. -/
  places : Std.HashMap String Nat := ∅

namespace NamedLists

instance : EmptyCollection NamedLists := ⟨{}⟩

instance : Inhabited NamedLists := ⟨∅⟩

def keys (lists : NamedLists) : List String := lists.entries.map Prod.fst

/-- The list in the place that the index tells. -/
def find? (lists : NamedLists) (name : String) : Option (Array NodeId) :=
  match lists.places[name]? with
  | some n => lists.entries[n]?.map Prod.snd
  | none => none

/-- Adds a node to the list in the place that the index tells.  A name without a place
gets the next one. -/
def add (lists : NamedLists) (name : String) (node : NodeId) : NamedLists :=
  match lists.places[name]? with
  | some n =>
    { lists with entries := lists.entries.modify n fun entry => (entry.1, entry.2.push node) }
  | none =>
    { entries := lists.entries ++ [(name, #[node])]
      places := lists.places.insert name lists.entries.length }

end NamedLists

end DebugMetadata

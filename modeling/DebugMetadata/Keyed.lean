/-!
# Keyed values

Values under text keys, in the order in which the keys were first used.  A key
that is used again keeps its place.
-/

namespace DebugMetadata

/-- Values under text keys, in the order in which the keys were first used. -/
structure Keyed (α : Type) where
  entries : List (String × α) := []
  deriving DecidableEq, Repr

namespace Keyed

variable {α : Type}

instance : EmptyCollection (Keyed α) := ⟨{}⟩

instance : Inhabited (Keyed α) := ⟨∅⟩

/-- The first value under a key in a list of entries. -/
def lookup (key : String) : List (String × α) → Option α
  | [] => none
  | (k, v) :: rest => if k = key then some v else lookup key rest

/-- The entries with the first value under a key made anew from the old one, or
with a last entry made from none. -/
def alterEntries (key : String) (f : Option α → α) : List (String × α) → List (String × α)
  | [] => [(key, f none)]
  | (k, v) :: rest =>
    if k = key then (k, f (some v)) :: rest else (k, v) :: alterEntries key f rest

def keys (t : Keyed α) : List String := t.entries.map Prod.fst

def find? (t : Keyed α) (key : String) : Option α := lookup key t.entries

/-- Makes the value under a key anew from the old one, if there is one. -/
def alter (t : Keyed α) (key : String) (f : Option α → α) : Keyed α :=
  ⟨alterEntries key f t.entries⟩

/-- Puts a value under a key, in the place of the old one if there is one. -/
def insert (t : Keyed α) (key : String) (value : α) : Keyed α :=
  t.alter key fun _ => value

private theorem lookup_alterEntries (key k : String) (f : Option α → α)
    (entries : List (String × α)) :
    lookup k (alterEntries key f entries) =
      if k = key then some (f (lookup key entries)) else lookup k entries := by
  induction entries with
  | nil => simp [alterEntries, lookup, eq_comm]
  | cons entry rest ih =>
    obtain ⟨k', v⟩ := entry
    grind [alterEntries, lookup]

private theorem map_fst_alterEntries (key : String) (f : Option α → α)
    (entries : List (String × α)) :
    (alterEntries key f entries).map Prod.fst =
      if key ∈ entries.map Prod.fst then entries.map Prod.fst
      else entries.map Prod.fst ++ [key] := by
  induction entries with
  | nil => simp [alterEntries]
  | cons entry rest ih =>
    obtain ⟨k', v⟩ := entry
    grind [alterEntries]

@[simp] theorem find?_empty (key : String) : (∅ : Keyed α).find? key = none := rfl

@[simp] theorem keys_empty : (∅ : Keyed α).keys = [] := rfl

theorem find?_alter (t : Keyed α) (key k : String) (f : Option α → α) :
    (t.alter key f).find? k = if k = key then some (f (t.find? key)) else t.find? k :=
  lookup_alterEntries key k f t.entries

theorem keys_alter (t : Keyed α) (key : String) (f : Option α → α) :
    (t.alter key f).keys = if key ∈ t.keys then t.keys else t.keys ++ [key] :=
  map_fst_alterEntries key f t.entries

theorem find?_insert (t : Keyed α) (key k : String) (value : α) :
    (t.insert key value).find? k = if k = key then some value else t.find? k :=
  t.find?_alter key k _

theorem keys_insert (t : Keyed α) (key : String) (value : α) :
    (t.insert key value).keys = if key ∈ t.keys then t.keys else t.keys ++ [key] :=
  t.keys_alter key _

end Keyed

end DebugMetadata

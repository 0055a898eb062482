import DebugMetadata.Keyed
import DebugMetadata.Proofs.Lists

/-!
# Keyed values and what was put in

Values under keys are told by what was put in under each key, in order.  The keys stand where
they were first used, and what is found under one depends on nothing that was put in under
another.  A key keeps its place, where what is under it is found and made anew.
-/

namespace DebugMetadata.Keyed

variable {α β : Type} {t : Keyed α} {view : List β → Option α} {pairs : List (String × β)}

/-- The keys are those that something was put in under, in the order of their first use, and
under each of them is what the view makes of all that was put in there. -/
structure Shows (t : Keyed α) (view : List β → Option α) (pairs : List (String × β)) : Prop where
  keys : t.keys = (pairs.map Prod.fst).eraseDups
  find? : ∀ key, t.find? key = view (valuesAt key pairs)

namespace Shows

theorem empty (hview : view [] = none) : (∅ : Keyed α).Shows view [] :=
  ⟨rfl, fun _ => hview.symm⟩

theorem alter (h : t.Shows view pairs) {key : String} {value : β} {f : Option α → α}
    (hf : ∀ values, view (values ++ [value]) = some (f (view values))) :
    (t.alter key f).Shows view (pairs ++ [(key, value)]) where
  keys := by
    rw [keys_alter, h.keys, List.map_append, List.map_singleton, eraseDups_concat]
    simp only [List.mem_eraseDups]
  find? := by
    intro k
    rw [find?_alter, h.find?, h.find?, valuesAt_concat]
    by_cases hk : k = key
    · rw [if_pos hk, if_pos hk.symm, hk, hf]
    · rw [if_neg hk, if_neg (Ne.symm hk)]

theorem nodup_keys (h : t.Shows view pairs) : t.keys.Nodup := by
  rw [h.keys]
  exact nodup_eraseDups _

end Shows

/-! ## Entries -/

private theorem eq_filterMap_lookup (entries : List (String × α))
    (h : (entries.map Prod.fst).Nodup) :
    entries = (entries.map Prod.fst).filterMap fun key => (lookup key entries).map (key, ·) := by
  induction entries with
  | nil => rfl
  | cons entry rest ih =>
      obtain ⟨k, v⟩ := entry
      obtain ⟨hfresh, hrest⟩ := List.nodup_cons.mp h
      have hlast : ∀ key ∈ rest.map Prod.fst,
          (lookup key ((k, v) :: rest)).map (key, ·) = (lookup key rest).map (key, ·) := by
        intro key hkey
        rw [lookup, if_neg]
        rintro rfl
        exact hfresh hkey
      rw [List.map_cons, List.filterMap_cons, lookup, if_pos rfl, Option.map_some,
        List.filterMap_congr hlast, ← ih hrest]

/-- Where no key is there twice, the entries are the keys with what is found under them. -/
theorem entries_eq_filterMap (h : t.keys.Nodup) :
    t.entries = t.keys.filterMap fun key => (t.find? key).map (key, ·) :=
  eq_filterMap_lookup t.entries h

/-- The entries in full: going through them and looking up a key tell the same. -/
theorem Shows.entries (h : t.Shows view pairs) :
    t.entries = (pairs.map Prod.fst).eraseDups.filterMap fun key =>
      (view (valuesAt key pairs)).map (key, ·) := by
  rw [entries_eq_filterMap h.nodup_keys, h.keys]
  simp only [h.find?]

/-! ## Places -/

private theorem lookup_eq_none {key : String} {entries : List (String × α)}
    (h : key ∉ entries.map Prod.fst) : lookup key entries = none := by
  induction entries with
  | nil => rfl
  | cons entry rest ih =>
      obtain ⟨k, v⟩ := entry
      obtain ⟨hne, hrest⟩ := List.ne_and_not_mem_of_not_mem_cons h
      rw [lookup, if_neg (Ne.symm hne), ih hrest]

private theorem lookup_of_getElem? {entries : List (String × α)}
    (h : (entries.map Prod.fst).Nodup) {n : Nat} {key : String} {value : α}
    (hn : entries[n]? = some (key, value)) : lookup key entries = some value := by
  induction entries generalizing n with
  | nil => cases hn
  | cons entry rest ih =>
      obtain ⟨k, v⟩ := entry
      obtain ⟨hfresh, hrest⟩ := List.nodup_cons.mp h
      rw [lookup]
      cases n with
      | zero =>
          cases hn
          exact if_pos rfl
      | succ n =>
          have hkey : key ∈ rest.map Prod.fst := List.mem_map.mpr ⟨_, List.mem_of_getElem? hn, rfl⟩
          rw [if_neg fun (hk : k = key) => hfresh (hk ▸ hkey), ih hrest hn]

private theorem alterEntries_of_getElem? {entries : List (String × α)}
    (h : (entries.map Prod.fst).Nodup) {n : Nat} {key : String}
    (hn : (entries.map Prod.fst)[n]? = some key) (f : Option α → α) :
    alterEntries key f entries = entries.modify n fun entry => (entry.1, f (some entry.2)) := by
  induction entries generalizing n with
  | nil => cases hn
  | cons entry rest ih =>
      obtain ⟨k, v⟩ := entry
      obtain ⟨hfresh, hrest⟩ := List.nodup_cons.mp h
      rw [alterEntries]
      cases n with
      | zero =>
          cases hn
          exact if_pos rfl
      | succ n =>
          rw [if_neg fun (hk : k = key) => hfresh (hk ▸ List.mem_of_getElem? hn), ih hrest hn]
          rfl

private theorem alterEntries_of_not_mem {key : String} {entries : List (String × α)}
    (h : key ∉ entries.map Prod.fst) (f : Option α → α) :
    alterEntries key f entries = entries ++ [(key, f none)] := by
  induction entries with
  | nil => rfl
  | cons entry rest ih =>
      obtain ⟨k, v⟩ := entry
      obtain ⟨hne, hrest⟩ := List.ne_and_not_mem_of_not_mem_cons h
      rw [alterEntries, if_neg (Ne.symm hne), ih hrest]
      rfl

variable {key : String} {n : Nat}

theorem find?_eq_none (h : key ∉ t.keys) : t.find? key = none := lookup_eq_none h

/-- Where no key is there twice, what is under a key is what stands in its place. -/
theorem find?_of_getElem? (h : t.keys.Nodup) {value : α}
    (hn : t.entries[n]? = some (key, value)) : t.find? key = some value :=
  lookup_of_getElem? h hn

/-- What is under a key is made anew in its place. -/
theorem entries_alter_of_getElem? (h : t.keys.Nodup) (hn : t.keys[n]? = some key)
    (f : Option α → α) :
    (t.alter key f).entries = t.entries.modify n fun entry => (entry.1, f (some entry.2)) :=
  alterEntries_of_getElem? h hn f

/-- A new key comes last. -/
theorem entries_alter_of_not_mem (h : key ∉ t.keys) (f : Option α → α) :
    (t.alter key f).entries = t.entries ++ [(key, f none)] :=
  alterEntries_of_not_mem h f

end DebugMetadata.Keyed

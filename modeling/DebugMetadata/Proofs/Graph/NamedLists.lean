import DebugMetadata.Graph.NamedLists
import DebugMetadata.Proofs.Keyed

/-!
# Named lists and their index

The index of named lists agrees with the list of them: it tells the place of every name that
was used and of no other.  Adding a node keeps it so, and so what is found by the index is what
a search for the name finds.
-/

namespace DebugMetadata.NamedLists

variable {lists : NamedLists} {name other : String} {node id : NodeId}

/-- The index tells the place of every name that was used, and of no other. -/
def Agrees (lists : NamedLists) : Prop :=
  ∀ (name : String) (n : Nat), lists.places[name]? = some n ↔ lists.keys[n]? = some name

/-- The lists without their index, among which a name is searched for. -/
def toKeyed (lists : NamedLists) : Keyed (Array NodeId) := ⟨lists.entries⟩

/-! ## Additions -/

theorem add_of_place {n : Nat} (h : lists.places[name]? = some n) (node : NodeId) :
    lists.add name node =
      { lists with
        entries := lists.entries.modify n fun entry => (entry.1, entry.2.push node) } := by
  rw [add, h]

theorem add_of_no_place (h : lists.places[name]? = none) (node : NodeId) :
    lists.add name node =
      { entries := lists.entries ++ [(name, #[node])]
        places := lists.places.insert name lists.entries.length } := by
  rw [add, h]

private theorem map_fst_modify (entries : List (String × Array NodeId)) (n : Nat)
    (node : NodeId) :
    (entries.modify n fun entry => (entry.1, entry.2.push node)).map Prod.fst =
      entries.map Prod.fst := by
  apply List.ext_getElem?
  intro k
  rw [List.getElem?_map, List.getElem?_map, List.getElem?_modify]
  cases entries[k]? with
  | none => rfl
  | some entry => split <;> rfl

/-- Only an addition under a name makes a list of that name. -/
theorem mem_keys_add (h : other ∈ (lists.add name node).keys) :
    other ∈ lists.keys ∨ other = name := by
  cases hplace : lists.places[name]? with
  | some n =>
      rw [add_of_place hplace, keys, map_fst_modify] at h
      exact .inl h
  | none =>
      rw [add_of_no_place hplace, keys, List.map_append, List.mem_append] at h
      exact h.imp id List.mem_singleton.mp

/-- What a list holds after an addition was added or was in a list before. -/
theorem mem_of_mem_add {entry : String × Array NodeId}
    (hentry : entry ∈ (lists.add name node).entries) (hid : id ∈ entry.2) :
    id = node ∨ ∃ old ∈ lists.entries, id ∈ old.2 := by
  cases hplace : lists.places[name]? with
  | some n =>
      rw [add_of_place hplace] at hentry
      obtain ⟨k, hk⟩ := List.mem_iff_getElem?.mp hentry
      rw [List.getElem?_modify] at hk
      obtain ⟨old, hold, rfl⟩ := Option.map_eq_some_iff.mp hk
      have hmem := List.mem_of_getElem? hold
      split at hid
      · rcases Array.mem_push.mp hid with hkept | rfl
        · exact .inr ⟨old, hmem, hkept⟩
        · exact .inl rfl
      · exact .inr ⟨old, hmem, hid⟩
  | none =>
      rw [add_of_no_place hplace, List.mem_append, List.mem_singleton] at hentry
      rcases hentry with hold | rfl
      · exact .inr ⟨entry, hold, hid⟩
      · exact .inl (List.mem_singleton.mp (Array.mem_toList_iff.mpr hid))

@[simp] theorem find?_empty (name : String) : (∅ : NamedLists).find? name = none := by
  have hplace : (∅ : NamedLists).places[name]? = none := Std.HashMap.getElem?_empty
  rw [find?, hplace]

/-! ## Agreement -/

namespace Agrees

theorem empty : (∅ : NamedLists).Agrees := by
  intro name n
  change (∅ : Std.HashMap String Nat)[name]? = some n ↔ ([] : List String)[n]? = some name
  simp

theorem nodup (h : lists.Agrees) : lists.keys.Nodup := by
  rw [List.nodup_iff_getElem?_ne_getElem?]
  intro i j hlt hj hsame
  have hi := (h _ i).mpr (hsame.trans (List.getElem?_eq_getElem hj))
  rw [(h _ j).mpr (List.getElem?_eq_getElem hj)] at hi
  exact absurd (Option.some.inj hi) (Nat.ne_of_gt hlt)

theorem not_mem_keys (h : lists.Agrees) (hplace : lists.places[name]? = none) :
    name ∉ lists.keys := by
  intro hmem
  obtain ⟨n, hn⟩ := List.mem_iff_getElem?.mp hmem
  rw [(h name n).mpr hn] at hplace
  cases hplace

/-- The index finds what the search finds. -/
theorem find?_eq (h : lists.Agrees) (name : String) :
    lists.find? name = lists.toKeyed.find? name := by
  have hnodup : lists.toKeyed.keys.Nodup := h.nodup
  unfold find?
  split
  next n hplace =>
    obtain ⟨entry, hentry, rfl⟩ := Option.map_eq_some_iff.mp
      (List.getElem?_map.symm.trans ((h name n).mp hplace))
    rw [hentry]
    exact (Keyed.find?_of_getElem? hnodup hentry).symm
  next hplace =>
    have hfresh : name ∉ lists.toKeyed.keys := h.not_mem_keys hplace
    exact (Keyed.find?_eq_none hfresh).symm

/-- A list is found by the index exactly if it stands somewhere under its name. -/
theorem find?_eq_some_iff (h : lists.Agrees) {nodes : Array NodeId} :
    lists.find? name = some nodes ↔ ∃ n : Nat, lists.entries[n]? = some (name, nodes) := by
  have hname (n : Nat) : lists.places[name]? = some n ↔
      ∃ entry, lists.entries[n]? = some entry ∧ entry.1 = name := by
    rw [h name n, keys, List.getElem?_map, Option.map_eq_some_iff]
  constructor
  · intro hfind
    unfold find? at hfind
    split at hfind
    next n hplace =>
      obtain ⟨entry, hentry, rfl⟩ := (hname n).mp hplace
      rw [hentry, Option.map_some, Option.some.injEq] at hfind
      exact ⟨n, by rw [hentry, ← hfind]⟩
    next => cases hfind
  · rintro ⟨n, hentry⟩
    rw [find?, (hname n).mpr ⟨_, hentry, rfl⟩]
    exact congrArg (Option.map Prod.snd) hentry

/-- Adding by the index adds where the search finds the name. -/
theorem toKeyed_add (h : lists.Agrees) (name : String) (node : NodeId) :
    (lists.add name node).toKeyed =
      lists.toKeyed.alter name fun nodes => (nodes.getD #[]).push node := by
  let pushed (nodes : Option (Array NodeId)) := (nodes.getD #[]).push node
  have hnodup : lists.toKeyed.keys.Nodup := h.nodup
  cases hplace : lists.places[name]? with
  | some n =>
      have hname : lists.toKeyed.keys[n]? = some name := (h name n).mp hplace
      rw [add_of_place hplace]
      exact congrArg Keyed.mk (Keyed.entries_alter_of_getElem? hnodup hname pushed).symm
  | none =>
      have hfresh : name ∉ lists.toKeyed.keys := h.not_mem_keys hplace
      rw [add_of_no_place hplace]
      exact congrArg Keyed.mk (Keyed.entries_alter_of_not_mem hfresh pushed).symm

/-- Adding a node keeps the index in agreement with the lists. -/
theorem add (h : lists.Agrees) (name : String) (node : NodeId) :
    (lists.add name node).Agrees := by
  intro other n
  cases hplace : lists.places[name]? with
  | some k =>
      rw [add_of_place hplace, keys, map_fst_modify]
      exact h other n
  | none =>
      have hfresh := h.not_mem_keys hplace
      have hlength : lists.keys.length = lists.entries.length := List.length_map _
      rw [add_of_no_place hplace, keys, List.map_append, List.map_singleton,
        getElem?_concat_eq_some_iff, Std.HashMap.getElem?_insert, ← hlength]
      change _ ↔ lists.keys[n]? = some other ∨ n = lists.keys.length ∧ name = other
      by_cases hname : name = other
      · subst hname
        rw [if_pos (beq_self_eq_true name), Option.some.injEq,
          or_iff_right fun hn => hfresh (List.mem_of_getElem? hn), and_iff_left rfl, eq_comm]
      · rw [if_neg (mt beq_iff_eq.mp hname), or_iff_left fun hn => hname hn.2]
        exact h other n

theorem find?_add (h : lists.Agrees) (name other : String) (node : NodeId) :
    (lists.add name node).find? other =
      if other = name then some (((lists.find? name).getD #[]).push node)
      else lists.find? other := by
  rw [(h.add name node).find?_eq, h.toKeyed_add, Keyed.find?_alter, h.find?_eq, h.find?_eq]

end Agrees

end DebugMetadata.NamedLists

import Mathlib.Data.List.Forall2
import Mathlib.Data.List.Induction
import Mathlib.Data.List.Nodup

/-!
# Lists

Lists that are read entry by entry, where reading one entry may fail, lists whose entries
keep their places, and lists of what was done under keys.
-/

namespace DebugMetadata

variable {α β : Type} {f : α → Option β}

/-- A list is read if each of its entries is. -/
theorem mapM_eq_some_iff {xs : List α} {zs : List β} :
    xs.mapM f = some zs ↔ List.Forall₂ (fun x z => f x = some z) xs zs := by
  constructor
  · intro h
    induction xs generalizing zs with
    | nil =>
        cases h
        exact .nil
    | cons x xs ih =>
        rw [List.mapM_cons] at h
        obtain ⟨z, hz, h⟩ := Option.bind_eq_some_iff.mp h
        obtain ⟨rest, hrest, h⟩ := Option.bind_eq_some_iff.mp h
        cases h
        exact .cons hz (ih hrest)
  · intro h
    induction h with
    | nil => rfl
    | cons hz _ ih =>
        rw [List.mapM_cons, hz, ih]
        rfl

theorem mapM_congr {f' : α → Option β} {xs : List α} (h : ∀ x ∈ xs, f x = f' x) :
    xs.mapM f = xs.mapM f' := by
  induction xs with
  | nil => rfl
  | cons x xs ih =>
      rw [List.mapM_cons, List.mapM_cons, h x List.mem_cons_self,
        ih fun y hy => h y (List.mem_cons_of_mem x hy)]

/-- What is read of an entry stands in the entry's place. -/
theorem getElem?_of_mapM {xs : List α} {zs : List β} (h : xs.mapM f = some zs) {n : Nat} {x : α}
    (hx : xs[n]? = some x) : ∃ z, zs[n]? = some z ∧ f x = some z := by
  rw [mapM_eq_some_iff] at h
  induction h generalizing n with
  | nil => cases hx
  | cons hz _ ih =>
      cases n with
      | zero =>
          cases hx
          exact ⟨_, rfl, hz⟩
      | succ n => exact ih hx

/-- Every entry of what is read is read of an entry. -/
theorem exists_of_mem_mapM {xs : List α} {zs : List β} (h : xs.mapM f = some zs) {z : β}
    (hz : z ∈ zs) : ∃ x ∈ xs, f x = some z := by
  rw [mapM_eq_some_iff] at h
  induction h with
  | nil => cases hz
  | @cons x _ xs _ hread _ ih =>
      rcases List.mem_cons.mp hz with rfl | hz
      · exact ⟨x, List.mem_cons_self, hread⟩
      · obtain ⟨y, hy, hread⟩ := ih hz
        exact ⟨y, List.mem_cons_of_mem x hy, hread⟩

theorem exists_mapM_eq_some {xs : List α} (h : ∀ x ∈ xs, ∃ z, f x = some z) :
    ∃ zs, xs.mapM f = some zs := by
  induction xs with
  | nil => exact ⟨[], rfl⟩
  | cons x xs ih =>
      obtain ⟨z, hz⟩ := h x List.mem_cons_self
      obtain ⟨rest, hrest⟩ := ih fun y hy => h y (List.mem_cons_of_mem x hy)
      refine ⟨z :: rest, ?_⟩
      rw [List.mapM_cons, hz, hrest]
      rfl

theorem isSome_mapM_iff {xs : List α} : (xs.mapM f).isSome ↔ ∀ x ∈ xs, (f x).isSome := by
  constructor
  · intro h x hx
    obtain ⟨zs, hzs⟩ := Option.isSome_iff_exists.mp h
    obtain ⟨n, hn⟩ := List.mem_iff_getElem?.mp hx
    obtain ⟨z, -, hz⟩ := getElem?_of_mapM hzs hn
    exact Option.isSome_iff_exists.mpr ⟨z, hz⟩
  · intro h
    exact Option.isSome_iff_exists.mpr
      (exists_mapM_eq_some fun x hx => Option.isSome_iff_exists.mp (h x hx))

/-- Two lists off which the same is read are equal, if what is read off an entry of the
first tells it from every other one. -/
theorem eq_of_mapM_eq {f' : α → Option β} {xs ys : List α} {zs : List β}
    (hf : ∀ x ∈ xs, ∀ y z, f x = some z → f' y = some z → x = y)
    (hxs : xs.mapM f = some zs) (hys : ys.mapM f' = some zs) : xs = ys := by
  rw [mapM_eq_some_iff] at hxs hys
  induction hxs generalizing ys with
  | nil =>
      cases hys
      rfl
  | @cons x z xs zs hz _ ih =>
      cases hys with
      | @cons y _ ys _ hz' hrest =>
          have hhead := hf x List.mem_cons_self y z hz hz'
          have htail := ih (fun w hw => hf w (List.mem_cons_of_mem x hw)) hrest
          rw [hhead, htail]

theorem getElem?_concat_eq_some_iff {xs : List α} {x y : α} {n : Nat} :
    (xs ++ [x])[n]? = some y ↔ xs[n]? = some y ∨ n = xs.length ∧ x = y := by
  rw [List.getElem?_append]
  by_cases hlt : n < xs.length
  · rw [if_pos hlt]
    simp [Nat.ne_of_lt hlt]
  · rw [if_neg hlt, List.getElem?_eq_none (Nat.le_of_not_lt hlt), List.getElem?_singleton]
    by_cases hn : n = xs.length
    · simp [hn]
    · have hpos : n - xs.length ≠ 0 := by omega
      simp [hn, hpos]

theorem filterMap_concat (f : α → Option β) (xs : List α) (x : α) :
    (xs ++ [x]).filterMap f = xs.filterMap f ++ (f x).toList := by
  rw [List.filterMap_append]
  cases hx : f x <;> simp [hx]

/-! ## Entries that keep their places -/

/-- Every entry of the first list is in its place in the second one too, changed only as
the relation allows. -/
def InPlace (R : α → α → Prop) (xs ys : List α) : Prop :=
  ∀ (n : Nat) (x : α), xs[n]? = some x → ∃ y, ys[n]? = some y ∧ R x y

namespace InPlace

variable {R : α → α → Prop} {xs ys zs : List α}

theorem refl (hR : ∀ x, R x x) (xs : List α) : InPlace R xs xs := by
  intro n x hx
  exact ⟨x, hx, hR x⟩

theorem of_eq (hR : ∀ x, R x x) (h : ys = xs) : InPlace R xs ys := by
  rw [h]
  exact refl hR xs

theorem trans (hR : ∀ {x y z}, R x y → R y z → R x z) (h : InPlace R xs ys)
    (h' : InPlace R ys zs) : InPlace R xs zs := by
  intro n x hx
  obtain ⟨y, hy, hxy⟩ := h n x hx
  obtain ⟨z, hz, hyz⟩ := h' n y hy
  exact ⟨z, hz, hR hxy hyz⟩

theorem concat (hR : ∀ x, R x x) (xs : List α) (y : α) : InPlace R xs (xs ++ [y]) := by
  intro n x hx
  obtain ⟨hlt, -⟩ := List.getElem?_eq_some_iff.mp hx
  refine ⟨x, ?_, hR x⟩
  rw [List.getElem?_append_left hlt]
  exact hx

theorem modify (hR : ∀ x, R x x) {f : α → α} (hf : ∀ x, R x (f x)) (xs : List α) (k : Nat) :
    InPlace R xs (xs.modify k f) := by
  intro n x hx
  refine ⟨if k = n then f x else x, ?_, ?_⟩
  · rw [List.getElem?_modify, hx]
    rfl
  · split
    · exact hf x
    · exact hR x

theorem length_le (h : InPlace R xs ys) : xs.length ≤ ys.length := by
  by_contra hlt
  have hlast : xs[ys.length]? = some xs[ys.length] :=
    List.getElem?_eq_getElem (Nat.lt_of_not_le hlt)
  obtain ⟨y, hy, -⟩ := h _ _ hlast
  rw [List.getElem?_eq_none (Nat.le_refl _)] at hy
  cases hy

/-- What no change touches is read off the second list as it is off the first, and then
more may follow. -/
theorem map_isPrefix (h : InPlace R xs ys) {f : α → β} (hf : ∀ x y, R x y → f x = f y) :
    xs.map f <+: ys.map f := by
  rw [List.prefix_iff_getElem?]
  intro n hn
  rw [List.length_map] at hn
  obtain ⟨y, hy, hxy⟩ := h n xs[n] (List.getElem?_eq_getElem hn)
  rw [List.getElem?_map, hy, List.getElem_map, hf _ _ hxy, Option.map_some]

end InPlace

/-! ## First occurrences -/

section FirstOccurrences

variable [DecidableEq α]

/-- An entry that is there already is no first occurrence. -/
theorem eraseDups_concat (xs : List α) (x : α) :
    (xs ++ [x]).eraseDups = if x ∈ xs then xs.eraseDups else xs.eraseDups ++ [x] := by
  rw [List.eraseDups_append, List.removeAll]
  split
  next hx => simp [hx]
  next hx =>
    have hsingle : [x].eraseDups = [x] := by
      rw [List.eraseDups_cons, List.filter_nil, List.eraseDups_nil]
    simp [hx, hsingle]

theorem nodup_eraseDups (xs : List α) : xs.eraseDups.Nodup := by
  induction xs using List.reverseRecOn with
  | nil => exact List.nodup_nil
  | append_singleton xs x ih =>
      rw [eraseDups_concat]
      split
      next => exact ih
      next hx =>
        rw [← List.concat_eq_append]
        exact List.Nodup.concat (fun hmem => hx (List.mem_eraseDups.mp hmem)) ih

end FirstOccurrences

/-! ## Values under keys -/

section ValuesAt

variable {κ : Type} [DecidableEq κ] {key : κ} {pairs : List (κ × α)}

/-- The values that are paired with a key, in order. -/
def valuesAt (key : κ) (pairs : List (κ × α)) : List α :=
  pairs.filterMap fun pair => if pair.1 = key then some pair.2 else none

theorem valuesAt_append (key : κ) (pairs pairs' : List (κ × α)) :
    valuesAt key (pairs ++ pairs') = valuesAt key pairs ++ valuesAt key pairs' :=
  List.filterMap_append

theorem valuesAt_concat (key k : κ) (pairs : List (κ × α)) (value : α) :
    valuesAt key (pairs ++ [(k, value)]) =
      if k = key then valuesAt key pairs ++ [value] else valuesAt key pairs := by
  rw [valuesAt_append]
  by_cases hk : k = key
  · simp [valuesAt, hk]
  · simp [valuesAt, hk]

theorem valuesAt_eq_nil_iff : valuesAt key pairs = [] ↔ key ∉ pairs.map Prod.fst := by
  rw [valuesAt, List.filterMap_eq_nil_iff, List.mem_map]
  constructor
  · rintro h ⟨pair, hpair, hkey⟩
    have hnone := h pair hpair
    rw [if_pos hkey] at hnone
    cases hnone
  · intro h pair hpair
    exact if_neg fun hkey => h ⟨pair, hpair, hkey⟩

end ValuesAt

/-! ## Lists with separators -/

section Separators

variable {separator : List α} {items : List (List α)}

theorem intercalate_cons (item : List α) (items : List (List α)) :
    separator.intercalate (item :: items) = item ++ items.flatMap (separator ++ ·) := by
  induction items generalizing item with
  | nil => rw [List.intercalate_singleton, List.flatMap_nil, List.append_nil]
  | cons next items ih =>
      rw [List.intercalate_cons_cons, ih, List.flatMap_cons, List.append_assoc, List.append_assoc]

theorem intercalate_concat (hne : items ≠ []) (item : List α) :
    separator.intercalate (items ++ [item]) =
      separator.intercalate items ++ (separator ++ item) := by
  cases items with
  | nil => exact absurd rfl hne
  | cons first items =>
      rw [List.cons_append, intercalate_cons, intercalate_cons, List.flatMap_append,
        List.flatMap_singleton, List.append_assoc]

theorem mem_intercalate {x : α} (h : x ∈ separator.intercalate items) :
    x ∈ separator ∨ ∃ item ∈ items, x ∈ item := by
  cases items with
  | nil => cases h
  | cons item items =>
      rw [intercalate_cons, List.mem_append, List.mem_flatMap] at h
      rcases h with h | ⟨other, hother, h⟩
      · exact .inr ⟨item, List.mem_cons_self, h⟩
      · rcases List.mem_append.mp h with h | h
        · exact .inl h
        · exact .inr ⟨other, List.mem_cons_of_mem item hother, h⟩

/-- What maps the separator to a separator maps the items between separators one by one. -/
theorem map_intercalate {f : List α → List β} {a : α} {b : β} (hnil : f [] = [])
    (hf : ∀ before after, f (before ++ a :: after) = f before ++ b :: f after)
    (items : List (List α)) : f ([a].intercalate items) = [b].intercalate (items.map f) := by
  induction items with
  | nil => exact hnil
  | cons item rest ih =>
      cases rest with
      | nil => rw [List.intercalate_singleton, List.map_singleton, List.intercalate_singleton]
      | cons next rest =>
          rw [List.intercalate_cons_cons, List.append_assoc, List.singleton_append, hf, ih,
            List.map_cons, List.map_cons, List.map_cons, List.intercalate_cons_cons,
            List.append_assoc, List.singleton_append]

end Separators

end DebugMetadata

import Mathlib.Data.List.Basic
import Mathlib.Data.List.Nodup

/-!
# Filing by owner

Things are numbered in the order in which they come, and each has an owner, which is a
number too.  The files of the owners list what each of them owns.  They are in order if
every file has the things of its owner in the order in which they came, and then nothing is
lost or filed twice.
-/

namespace DebugMetadata

variable {ι : Type} {mk : Nat → ι} {owners : List Nat} {files : List (List ι)} {n owner other : Nat}

/-- The numbers of the things of an owner in the order in which they came. -/
def ownedBy (owners : List Nat) (owner : Nat) : List Nat :=
  (List.range owners.length).filter fun n => owners[n]? = some owner

theorem mem_ownedBy : n ∈ ownedBy owners owner ↔ owners[n]? = some owner := by
  unfold ownedBy
  rw [List.mem_filter, List.mem_range, decide_eq_true_eq]
  constructor
  · exact fun h => h.2
  · intro h
    obtain ⟨hlt, -⟩ := List.getElem?_eq_some_iff.mp h
    exact ⟨hlt, h⟩

theorem pairwise_ownedBy (owners : List Nat) (owner : Nat) :
    (ownedBy owners owner).Pairwise (· < ·) :=
  List.pairwise_lt_range.filter _

theorem nodup_ownedBy (owners : List Nat) (owner : Nat) : (ownedBy owners owner).Nodup :=
  List.nodup_range.filter _

/-- A thing that comes next is the last one of its owner and nobody else's. -/
theorem ownedBy_concat (owners : List Nat) (other owner : Nat) :
    ownedBy (owners ++ [other]) owner =
      ownedBy owners owner ++ if other = owner then [owners.length] else [] := by
  have hold : (List.range owners.length).filter
      (fun n => (owners ++ [other])[n]? = some owner) = ownedBy owners owner := by
    apply List.filter_congr
    intro n hn
    rw [List.getElem?_append_left (List.mem_range.mp hn)]
  have hnew : [owners.length].filter (fun n => (owners ++ [other])[n]? = some owner) =
      if other = owner then [owners.length] else [] := by
    by_cases howner : other = owner
    · simp [howner]
    · simp [howner]
  calc ownedBy (owners ++ [other]) owner
      = (List.range owners.length ++ [owners.length]).filter
          (fun n => (owners ++ [other])[n]? = some owner) := by
        rw [ownedBy, List.length_append, List.length_singleton, List.range_succ]
    _ = ownedBy owners owner ++ if other = owner then [owners.length] else [] := by
        rw [List.filter_append, hold, hnew]

/-- Every owner has a file, and in it what it owns. -/
structure Filed (mk : Nat → ι) (owners : List Nat) (files : List (List ι)) : Prop where
  lt : ∀ owner ∈ owners, owner < files.length
  file : ∀ (owner : Nat) (file : List ι), files[owner]? = some file →
    file = (ownedBy owners owner).map mk

namespace Filed

theorem nil : Filed mk [] [] := by
  refine ⟨fun owner h => absurd h List.not_mem_nil, ?_⟩
  intro owner file h
  cases h

/-- A new file is empty, because its owner has nothing yet. -/
theorem concat_file (h : Filed mk owners files) : Filed mk owners (files ++ [[]]) := by
  refine ⟨?_, ?_⟩
  · intro owner howner
    rw [List.length_append, List.length_singleton]
    exact Nat.lt_succ_of_lt (h.lt owner howner)
  · intro owner file hfile
    rcases Nat.lt_or_ge owner files.length with hlt | hge
    · rw [List.getElem?_append_left hlt] at hfile
      exact h.file owner file hfile
    · rw [List.getElem?_append_right hge] at hfile
      have hempty : file = [] := List.mem_singleton.mp (List.mem_of_getElem? hfile)
      have hnone : ownedBy owners owner = [] := by
        rw [List.eq_nil_iff_forall_not_mem]
        intro n hn
        have howner := h.lt owner (List.mem_of_getElem? (mem_ownedBy.mp hn))
        omega
      rw [hempty, hnone, List.map_nil]

/-- What comes next is filed at the end of its owner's file. -/
theorem concat (h : Filed mk owners files) (hlt : owner < files.length) :
    Filed mk (owners ++ [owner]) (files.modify owner (· ++ [mk owners.length])) := by
  refine ⟨?_, ?_⟩
  · intro other hother
    rw [List.length_modify]
    rcases List.mem_append.mp hother with hold | hnew
    · exact h.lt other hold
    · rw [List.mem_singleton.mp hnew]
      exact hlt
  · intro other file hfile
    rw [List.getElem?_modify] at hfile
    obtain ⟨old, hold, hfile⟩ := Option.map_eq_some_iff.mp hfile
    rw [ownedBy_concat, List.map_append, ← h.file other old hold, ← hfile]
    by_cases hother : owner = other
    · rw [if_pos hother, if_pos hother]
      rfl
    · rw [if_neg hother, if_neg hother]
      exact (List.append_nil old).symm

/-- A file has its owner's things out of all things, in the order of all things. -/
theorem file_eq_filter (h : Filed mk owners files) {file : List ι} (hfile : files[owner]? = some file)
    {p : ι → Bool} (hp : ∀ n, p (mk n) = true ↔ owners[n]? = some owner) :
    file = ((List.range owners.length).map mk).filter p := by
  rw [h.file owner file hfile, ownedBy, List.filter_map]
  congr 1
  apply List.filter_congr
  intro n _
  rw [Function.comp_apply, Bool.eq_iff_iff, hp, decide_eq_true_eq]

theorem file_pairwise (h : Filed mk owners files) {file : List ι} (hfile : files[owner]? = some file)
    {number : ι → Nat} (hnumber : ∀ n, number (mk n) = n) :
    file.Pairwise fun a b => number a < number b := by
  rw [h.file owner file hfile, List.pairwise_map]
  refine (pairwise_ownedBy owners owner).imp ?_
  intro a b hlt
  rw [hnumber, hnumber]
  exact hlt

/-- Together the owners own every thing once. -/
theorem ownedBy_perm (h : Filed mk owners files) :
    ((List.range files.length).map (ownedBy owners)).flatten.Perm (List.range owners.length) := by
  have hdisjoint : ∀ {owner other : Nat}, owner ≠ other →
      List.Disjoint (ownedBy owners owner) (ownedBy owners other) := by
    intro owner other hne n hn hn'
    rw [mem_ownedBy] at hn hn'
    exact hne (Option.some.inj (hn.symm.trans hn'))
  have hnodup : ((List.range files.length).map (ownedBy owners)).flatten.Nodup := by
    rw [List.nodup_flatten]
    refine ⟨?_, List.pairwise_map.mpr (List.nodup_range.imp hdisjoint)⟩
    intro numbers hnumbers
    obtain ⟨owner, -, rfl⟩ := List.mem_map.mp hnumbers
    exact nodup_ownedBy owners owner
  rw [List.perm_ext_iff_of_nodup hnodup List.nodup_range]
  intro n
  rw [List.mem_flatten, List.mem_range]
  constructor
  · rintro ⟨numbers, hnumbers, hn⟩
    obtain ⟨owner, -, rfl⟩ := List.mem_map.mp hnumbers
    obtain ⟨hlt, -⟩ := List.getElem?_eq_some_iff.mp (mem_ownedBy.mp hn)
    exact hlt
  · intro hlt
    refine ⟨ownedBy owners owners[n], List.mem_map.mpr ⟨owners[n], ?_, rfl⟩, ?_⟩
    · exact List.mem_range.mpr (h.lt _ (List.getElem_mem hlt))
    · exact mem_ownedBy.mpr (List.getElem?_eq_getElem hlt)

/-- Together the files have every thing once. -/
theorem flatten_perm (h : Filed mk owners files) :
    files.flatten.Perm ((List.range owners.length).map mk) := by
  have hfiles : files = ((List.range files.length).map (ownedBy owners)).map (List.map mk) := by
    apply List.ext_getElem
    · rw [List.length_map, List.length_map, List.length_range]
    · intro owner hlt _
      rw [List.getElem_map, List.getElem_map, List.getElem_range]
      exact h.file owner _ (List.getElem?_eq_getElem hlt)
  rw [hfiles, ← List.map_flatten]
  exact h.ownedBy_perm.map mk

end Filed

end DebugMetadata

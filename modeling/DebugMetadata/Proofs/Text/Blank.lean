import DebugMetadata.Text.Blank
import Mathlib.Data.List.Forall2
import Mathlib.Data.List.TakeWhile

/-!
# The word of a text

A text is its word with white space at both ends.  The word of a setting is read without
regard to the case of its ASCII letters, so a text has a given word exactly if it is some
spelling of the word between white space.
-/

namespace DebugMetadata.Text

variable {s t before after : List Char} {text word : String} {c d : Char}

/-! ## White space -/

/-- The code points with the property White_Space. -/
def whiteSpace : List Nat :=
  [0x09, 0x0A, 0x0B, 0x0C, 0x0D, 0x20, 0x85, 0xA0, 0x1680,
   0x2000, 0x2001, 0x2002, 0x2003, 0x2004, 0x2005, 0x2006, 0x2007, 0x2008, 0x2009, 0x200A,
   0x2028, 0x2029, 0x202F, 0x205F, 0x3000]

def IsWhiteSpace (c : Char) : Prop := c.toNat ∈ whiteSpace

instance (c : Char) : Decidable (IsWhiteSpace c) :=
  inferInstanceAs (Decidable (c.toNat ∈ whiteSpace))

theorem isBlank_iff : isBlank c = true ↔ IsWhiteSpace c := by
  simp [isBlank, blankRanges, IsWhiteSpace, whiteSpace]
  omega

/-- Only white space is taken from the ends. -/
theorem exists_eq_trim (s : List Char) :
    ∃ before after, s = before ++ trim s ++ after ∧ (∀ c ∈ before, IsWhiteSpace c) ∧
      ∀ c ∈ after, IsWhiteSpace c := by
  refine ⟨s.takeWhile isBlank, ((s.dropWhile isBlank).reverse.takeWhile isBlank).reverse, ?_, ?_,
    ?_⟩
  · rw [trim, List.append_assoc, ← List.reverse_append, List.takeWhile_append_dropWhile,
      List.reverse_reverse, List.takeWhile_append_dropWhile]
  · exact fun c hc => isBlank_iff.mp (List.mem_takeWhile_imp hc)
  · exact fun c hc => isBlank_iff.mp (List.mem_takeWhile_imp (List.mem_reverse.mp hc))

theorem dropWhile_isBlank (ht : ∀ c ∈ t, ¬IsWhiteSpace c) : t.dropWhile isBlank = t := by
  cases t with
  | nil => rfl
  | cons c t =>
      exact List.dropWhile_cons_of_neg fun hblank => ht c List.mem_cons_self (isBlank_iff.mp hblank)

/-- White space at the ends is taken from them. -/
theorem trim_append (hbefore : ∀ c ∈ before, IsWhiteSpace c) (ht : ∀ c ∈ t, ¬IsWhiteSpace c)
    (hafter : ∀ c ∈ after, IsWhiteSpace c) : trim (before ++ t ++ after) = t := by
  have hblank {s : List Char} (hs : ∀ c ∈ s, IsWhiteSpace c) : ∀ c ∈ s, isBlank c = true :=
    fun c hc => isBlank_iff.mpr (hs c hc)
  rw [trim, List.append_assoc, List.dropWhile_append_of_pos (hblank hbefore)]
  cases t with
  | nil =>
      rw [List.nil_append, ← List.append_nil after, List.dropWhile_append_of_pos (hblank hafter)]
      rfl
  | cons c t =>
      have hfirst : ¬isBlank c = true := fun h => ht c List.mem_cons_self (isBlank_iff.mp h)
      have hlast : ∀ c' ∈ (c :: t).reverse, ¬IsWhiteSpace c' :=
        fun c' hc' => ht c' (List.mem_reverse.mp hc')
      rw [List.cons_append, List.dropWhile_cons_of_neg hfirst, ← List.cons_append,
        List.reverse_append,
        List.dropWhile_append_of_pos fun c' hc' => hblank hafter c' (List.mem_reverse.mp hc'),
        dropWhile_isBlank hlast, List.reverse_reverse]

/-! ## Case -/

def IsUpper (c : Char) : Prop := 'A' ≤ c ∧ c ≤ 'Z'

instance (c : Char) : Decidable (IsUpper c) := inferInstanceAs (Decidable ('A' ≤ c ∧ c ≤ 'Z'))

/-- The same character, or the same ASCII letter in the other case. -/
def SameUpToCase (c d : Char) : Prop :=
  c = d ∨ (IsUpper c ∧ d.toNat = c.toNat + 32) ∨ (IsUpper d ∧ c.toNat = d.toNat + 32)

theorem IsUpper.toNat (h : IsUpper c) : 0x41 ≤ c.toNat ∧ c.toNat ≤ 0x5A := h

theorem toNat_toLower (h : IsUpper c) : c.toLower.toNat = c.toNat + 32 := by
  have ⟨_, _⟩ := h.toNat
  have hsmall : c.toNat + 32 < 2 ^ 32 := by omega
  have hcode : c.toLower.val = c.val + 32 := congrArg Char.val (dif_pos h)
  exact (congrArg UInt32.toNat hcode).trans ((UInt32.toNat_add _ _).trans (Nat.mod_eq_of_lt hsmall))

theorem toLower_of_not_isUpper (h : ¬IsUpper c) : c.toLower = c := dif_neg h

theorem toLower_eq_iff (hd : ¬IsUpper d) : c.toLower = d ↔ SameUpToCase c d := by
  by_cases hc : IsUpper c
  · constructor
    · rintro rfl
      exact .inr (.inl ⟨hc, toNat_toLower hc⟩)
    · rintro (rfl | ⟨-, hsame⟩ | ⟨hupper, -⟩)
      · exact absurd hc hd
      · exact Char.toNat_inj.mp ((toNat_toLower hc).trans hsame.symm)
      · exact absurd hupper hd
  · rw [toLower_of_not_isUpper hc]
    constructor
    · exact .inl
    · rintro (hsame | ⟨hupper, -⟩ | ⟨hupper, -⟩)
      · exact hsame
      · exact absurd hupper hc
      · exact absurd hupper hd

theorem SameUpToCase.not_isWhiteSpace (h : SameUpToCase c d) (hd : ¬IsWhiteSpace d) :
    ¬IsWhiteSpace c := by
  rcases h with rfl | ⟨hupper, -⟩ | ⟨hupper, hlower⟩
  · exact hd
  · have := hupper.toNat
    simp [IsWhiteSpace, whiteSpace]
    omega
  · have := hupper.toNat
    simp [IsWhiteSpace, whiteSpace]
    omega

/-! ## Words -/

/-- The word between white space, in any case. -/
def Names (text word : String) : Prop :=
  ∃ before spelling after : String, text = before ++ spelling ++ after ∧
    (∀ c ∈ before.toList, IsWhiteSpace c) ∧ (∀ c ∈ after.toList, IsWhiteSpace c) ∧
    List.Forall₂ SameUpToCase spelling.toList word.toList

/-- The words that a text may have: lower case without white space. -/
def IsWord (word : String) : Prop := ∀ c ∈ word.toList, ¬IsWhiteSpace c ∧ ¬IsUpper c

-- The characters of the word are tried, and not all characters there are.
instance (word : String) : Decidable (IsWord word) :=
  List.decidableBAll (fun c => ¬IsWhiteSpace c ∧ ¬IsUpper c) word.toList

theorem map_toLower_eq_iff (ht : ∀ d ∈ t, ¬IsUpper d) :
    s.map Char.toLower = t ↔ List.Forall₂ SameUpToCase s t := by
  induction t generalizing s with
  | nil => rw [List.map_eq_nil_iff, List.forall₂_nil_right_iff]
  | cons d t ih =>
      have hd : ¬IsUpper d := ht d List.mem_cons_self
      have ih {s : List Char} := @ih s fun d' hd' => ht d' (List.mem_cons_of_mem d hd')
      cases s with
      | nil => exact ⟨nofun, nofun⟩
      | cons c s => rw [List.map_cons, List.cons.injEq, List.forall₂_cons, toLower_eq_iff hd, ih]

theorem settingWord_eq_iff (hword : IsWord word) : settingWord text = word ↔ Names text word := by
  have hlower : ∀ d ∈ word.toList, ¬IsUpper d := fun d hd => (hword d hd).2
  rw [settingWord, ← String.toList_inj, String.toList_ofList]
  constructor
  · intro h
    obtain ⟨before, after, htext, hbefore, hafter⟩ := exists_eq_trim text.toList
    refine ⟨String.ofList before, String.ofList (trim text.toList), String.ofList after, ?_, ?_,
      ?_, ?_⟩
    · rw [← String.ofList_append, ← String.ofList_append, ← htext, String.ofList_toList]
    · rwa [String.toList_ofList]
    · rwa [String.toList_ofList]
    · rw [String.toList_ofList]
      exact (map_toLower_eq_iff hlower).mp h
  · rintro ⟨before, spelling, after, rfl, hbefore, hafter, hspelling⟩
    have hmap := (map_toLower_eq_iff hlower).mpr hspelling
    have hsolid : ∀ c ∈ spelling.toList, ¬IsWhiteSpace c := by
      intro c hc
      have hmem : c.toLower ∈ word.toList := hmap ▸ List.mem_map_of_mem hc
      exact ((toLower_eq_iff (hlower _ hmem)).mp rfl).not_isWhiteSpace (hword _ hmem).1
    rw [String.toList_append, String.toList_append, trim_append hbefore hsolid hafter, hmap]

end DebugMetadata.Text

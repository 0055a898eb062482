import DebugMetadata.Proofs.Lists
import DebugMetadata.Proofs.Text.Quoted
import DebugMetadata.Text.Decimal
import Std.Data.String.ToInt

/-!
# Texts that are told apart

A text that is followed by others can be read off them if it is known where it ends.  What is
made of the characters of a class ends where another character follows, a literal at its
second quote, and the items of a list at the delimiters between them.  Such texts are told
apart: where two of them begin the same, they stand for the same and the same follows.
-/

namespace DebugMetadata.Text

variable {p : Char → Bool} {a b s t : List Char} {u v : String}

/-! ## Characters of a class -/

/-- What follows does not go on with a character of the class. -/
def Leaves (p : Char → Bool) (s : List Char) : Prop := ∀ c, s.head? = some c → p c = false

theorem leaves_cons {c : Char} (hc : p c = false) : Leaves p (c :: s) := by
  intro c' hc'
  rw [← Option.some.inj hc']
  exact hc

theorem takeWhile_append_of_leaves (ha : ∀ c ∈ a, p c = true) (hs : Leaves p s) :
    (a ++ s).takeWhile p = a := by
  rw [List.takeWhile_append_of_pos ha]
  cases s with
  | nil => exact List.append_nil a
  | cons c s =>
      have hc : ¬p c = true := by
        rw [hs c rfl]
        exact Bool.false_ne_true
      rw [List.takeWhile_cons_of_neg hc, List.append_nil]

theorem append_inj_of_leaves (ha : ∀ c ∈ a, p c = true) (hb : ∀ c ∈ b, p c = true)
    (hs : Leaves p s) (ht : Leaves p t) (h : a ++ s = b ++ t) : a = b ∧ s = t := by
  have hsame : a = b := by
    rw [← takeWhile_append_of_leaves ha hs, h, takeWhile_append_of_leaves hb ht]
  rw [hsame] at h
  exact ⟨hsame, List.append_cancel_left h⟩

/-- What is made of the characters of a class and is not empty starts with one of them. -/
theorem exists_cons (hne : u ≠ "") (hu : ∀ c ∈ u.toList, p c = true) :
    ∃ c rest, u.toList = c :: rest ∧ p c = true := by
  cases hlist : u.toList with
  | nil => exact absurd (String.toList_eq_nil_iff.mp hlist) hne
  | cons c rest => exact ⟨c, rest, rfl, hu c (hlist ▸ List.mem_cons_self)⟩

/-! ## Numbers -/

theorem isDigit_of_mem_repr {n : Nat} : ∀ c ∈ n.repr.toList, c.isDigit = true := by
  intro c hc
  rw [Nat.toList_repr] at hc
  exact Nat.isDigit_of_mem_toDigits (by omega) (by omega) hc

theorem repr_append_inj {m n : Nat} (hs : Leaves Char.isDigit s) (ht : Leaves Char.isDigit t)
    (h : m.repr.toList ++ s = n.repr.toList ++ t) : m = n ∧ s = t := by
  obtain ⟨hrepr, hrest⟩ := append_inj_of_leaves isDigit_of_mem_repr isDigit_of_mem_repr hs ht h
  exact ⟨Nat.repr_inj.mp (String.toList_inj.mp hrepr), hrest⟩

/-- The characters of a decimal number. -/
def isNumeral (c : Char) : Bool := c.isDigit || c == '-'

theorem isNumeral_of_mem_decimal {n : Int} : ∀ c ∈ (decimal n).toList, isNumeral c = true := by
  intro c hc
  cases n with
  | ofNat n =>
      rw [isNumeral, isDigit_of_mem_repr c hc, Bool.true_or]
  | negSucc n =>
      rw [decimal, String.toList_append, List.mem_append] at hc
      rcases hc with hc | hc
      · rw [List.mem_singleton.mp hc]
        decide
      · rw [isNumeral, isDigit_of_mem_repr c hc, Bool.true_or]

theorem decimal_eq_repr (n : Int) : decimal n = n.repr := by
  cases n <;> rfl

theorem decimal_append_inj {m n : Int} (hs : Leaves isNumeral s) (ht : Leaves isNumeral t)
    (h : (decimal m).toList ++ s = (decimal n).toList ++ t) : m = n ∧ s = t := by
  obtain ⟨hdecimal, hrest⟩ :=
    append_inj_of_leaves isNumeral_of_mem_decimal isNumeral_of_mem_decimal hs ht h
  have hrepr := String.toList_inj.mp hdecimal
  rw [decimal_eq_repr, decimal_eq_repr] at hrepr
  exact ⟨Int.repr_inj.mp hrepr, hrest⟩

theorem decimal_starts (n : Int) :
    ∃ c rest, (decimal n).toList = c :: rest ∧ isNumeral c = true := by
  apply exists_cons _ isNumeral_of_mem_decimal
  cases n with
  | ofNat n => exact Nat.repr_ne_empty
  | negSucc n =>
      intro h
      rw [decimal, String.append_eq_empty_iff] at h
      exact absurd h.1 (by decide)

/-! ## Words -/

/-- A letter, a digit or an underscore. -/
def isWordChar (c : Char) : Bool := c.isAlphanum || c == '_'

/-- A letter or an underscore. -/
def isWordStart (c : Char) : Bool := c.isAlpha || c == '_'

/-- Whether the text is a word that does not start with a digit. -/
def isIdentifier (s : String) : Bool :=
  match s.toList with
  | [] => false
  | c :: rest => isWordStart c && rest.all isWordChar

/-- A character of the name of a function that can be told. -/
def isSymbolChar (c : Char) : Bool := isWordChar c || c == '.' || c == '$'

theorem isIdentifier_starts (h : isIdentifier u = true) :
    ∃ c rest, u.toList = c :: rest ∧ isWordStart c = true := by
  unfold isIdentifier at h
  split at h
  next => cases h
  next c rest hu => exact ⟨c, rest, hu, (Bool.and_eq_true_iff.mp h).1⟩

theorem isWordChar_of_mem_identifier (h : isIdentifier u = true) :
    ∀ c ∈ u.toList, isWordChar c = true := by
  unfold isIdentifier at h
  split at h
  next => cases h
  next c rest hu =>
    rw [hu, List.forall_mem_cons]
    obtain ⟨hc, hrest⟩ := Bool.and_eq_true_iff.mp h
    refine ⟨?_, List.all_eq_true.mp hrest⟩
    rw [isWordStart] at hc
    rw [isWordChar, Char.isAlphanum, Bool.or_right_comm, hc, Bool.true_or]

theorem le_toNat_of_isWordStart {c : Char} (h : isWordStart c = true) : 65 ≤ c.toNat := by
  rcases Bool.or_eq_true_iff.mp h with h | h
  · rcases Bool.or_eq_true_iff.mp h with hupper | hlower
    · have hle : 'A'.val ≤ c.val := (of_decide_eq_true hupper).1
      exact UInt32.le_iff_toNat_le.mp hle
    · have hle : 'a'.val ≤ c.val := of_decide_eq_true (Bool.and_eq_true_iff.mp hlower).1
      exact Nat.le_trans (by decide) (UInt32.le_iff_toNat_le.mp hle)
  · rw [beq_iff_eq.mp h]
    decide

theorem toNat_le_of_isNumeral {c : Char} (h : isNumeral c = true) : c.toNat ≤ 57 := by
  rcases Bool.or_eq_true_iff.mp h with h | h
  · exact (Char.isDigit_iff_toNat.mp h).2
  · rw [beq_iff_eq.mp h]
    decide

theorem isWordStart_of_isNumeral {c : Char} (h : isNumeral c = true) : isWordStart c = false := by
  rw [Bool.eq_false_iff]
  intro hstart
  have hlow := toNat_le_of_isNumeral h
  have hhigh := le_toNat_of_isWordStart hstart
  omega

theorem word_append_inj (hu : ∀ c ∈ u.toList, isWordChar c = true)
    (hv : ∀ c ∈ v.toList, isWordChar c = true) (hs : Leaves isWordChar s)
    (ht : Leaves isWordChar t) (h : u.toList ++ s = v.toList ++ t) : u = v ∧ s = t := by
  obtain ⟨hsame, hrest⟩ := append_inj_of_leaves hu hv hs ht h
  exact ⟨String.toList_inj.mp hsame, hrest⟩

/-! ## Literals -/

theorem toList_literal (s : String) :
    (Quoted.literal s).toList = '"' :: ((Quoted.escape s).toList ++ ['"']) := by
  rw [Quoted.literal, String.toList_append, String.toList_append]
  rfl

theorem literal_append_inj {x y : String}
    (h : (Quoted.literal x).toList ++ s = (Quoted.literal y).toList ++ t) : x = y ∧ s = t := by
  have hinside (x : String) : ∀ c ∈ (Quoted.escape x).toList, (c != '"') = true := by
    intro c hc
    rw [bne_iff_ne]
    rintro rfl
    exact Quoted.quote_not_mem_escape x hc
  rw [toList_literal, toList_literal, List.cons_append, List.cons_append, List.append_assoc,
    List.append_assoc] at h
  obtain ⟨hescape, hrest⟩ := append_inj_of_leaves (hinside x) (hinside y) (leaves_cons rfl)
    (leaves_cons rfl) (List.cons.inj h).2
  exact ⟨Quoted.escape_inj.mp (String.toList_inj.mp hescape), (List.cons.inj hrest).2⟩

/-! ## Lists -/

/-- The characters that can follow an item of a list. -/
def delimiters : List Char := [',', ')', '}']

/-- What follows goes on with a delimiter. -/
def Delimited (s : List Char) : Prop := ∃ c ∈ delimiters, ∃ rest, s = c :: rest

theorem eq_false_of_mem_delimiters {c : Char} (hp : delimiters.all (!p ·) = true)
    (hc : c ∈ delimiters) : p c = false := by
  rw [← Bool.not_eq_true']
  exact List.all_eq_true.mp hp c hc

theorem Delimited.leaves (h : Delimited s) (hp : delimiters.all (!p ·) = true) : Leaves p s := by
  obtain ⟨c, hc, rest, rfl⟩ := h
  exact leaves_cons (eq_false_of_mem_delimiters hp hc)

/-- The texts of things of a kind are told apart where delimiters follow them. -/
structure ToldApart {α : Type} (R : α → List Char → Prop) : Prop where
  eq : ∀ {x y a b s t}, R x a → R y b → Delimited s → Delimited t → a ++ s = b ++ t →
    x = y ∧ s = t
  /-- None of the texts is empty or starts with a delimiter. -/
  starts : ∀ {x a}, R x a → ∃ c rest, a = c :: rest ∧ c ∉ delimiters

namespace ToldApart

variable {α : Type} {R : α → List Char → Prop} {xs ys : List α} {as bs : List (List Char)}
  {close : Char}

theorem delimited_flatMap (hclose : close ∈ delimiters) (as : List (List Char)) (s : List Char) :
    Delimited (as.flatMap ([',', ' '] ++ ·) ++ close :: s) := by
  cases as with
  | nil => exact ⟨close, hclose, s, rfl⟩
  | cons a as => exact ⟨',', List.mem_cons_self, _, rfl⟩

theorem flatMap_append_inj (h : ToldApart R) (hclose : close ∈ delimiters) (hcomma : close ≠ ',')
    (hxs : List.Forall₂ R xs as) (hys : List.Forall₂ R ys bs)
    (heq : as.flatMap ([',', ' '] ++ ·) ++ close :: s =
      bs.flatMap ([',', ' '] ++ ·) ++ close :: t) : xs = ys ∧ s = t := by
  induction hxs generalizing ys bs with
  | nil =>
      cases hys with
      | nil => exact ⟨rfl, (List.cons.inj heq).2⟩
      | cons => exact absurd (List.cons.inj heq).1 hcomma
  | @cons x a xs as hx _ ih =>
      cases hys with
      | nil => exact absurd (List.cons.inj heq).1.symm hcomma
      | @cons y b ys bs hy hys =>
          rw [List.flatMap_cons, List.flatMap_cons, List.append_assoc, List.append_assoc,
            List.append_assoc, List.append_assoc] at heq
          obtain ⟨hhead, htail⟩ := h.eq hx hy (delimited_flatMap hclose as s)
            (delimited_flatMap hclose bs t) (List.append_cancel_left heq)
          obtain ⟨hrest, hs⟩ := ih hys htail
          exact ⟨by rw [hhead, hrest], hs⟩

/-- Lists of such texts are told apart by what closes them. -/
theorem intercalate_append_inj (h : ToldApart R) (hclose : close ∈ delimiters)
    (hcomma : close ≠ ',') (hxs : List.Forall₂ R xs as) (hys : List.Forall₂ R ys bs)
    (heq : [',', ' '].intercalate as ++ close :: s = [',', ' '].intercalate bs ++ close :: t) :
    xs = ys ∧ s = t := by
  have hstart {x : α} {a : List Char} (hx : R x a) (as : List (List Char)) (s t : List Char) :
      [',', ' '].intercalate (a :: as) ++ s ≠ close :: t := by
    obtain ⟨c, rest, rfl, hc⟩ := h.starts hx
    rw [intercalate_cons]
    rintro hopen
    exact hc ((List.cons.inj hopen).1 ▸ hclose)
  cases hxs with
  | nil =>
      cases hys with
      | nil => exact ⟨rfl, (List.cons.inj heq).2⟩
      | cons hy hys => exact absurd heq.symm (hstart hy _ _ _)
  | cons hx hxs =>
      cases hys with
      | nil => exact absurd heq (hstart hx _ _ _)
      | cons hy hys =>
          rw [intercalate_cons, intercalate_cons, List.append_assoc, List.append_assoc] at heq
          obtain ⟨hhead, htail⟩ := h.eq hx hy (delimited_flatMap hclose _ s)
            (delimited_flatMap hclose _ t) heq
          obtain ⟨hrest, hs⟩ := h.flatMap_append_inj hclose hcomma hxs hys htail
          exact ⟨by rw [hhead, hrest], hs⟩

end ToldApart

end DebugMetadata.Text

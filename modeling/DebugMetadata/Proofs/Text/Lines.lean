import DebugMetadata.Code.Type
import DebugMetadata.Text.Decimal
import DebugMetadata.Text.Quoted
import Mathlib.Data.List.Basic

/-!
# Texts on one line

The texts without a newline, which are put together from one another.  A quoted literal is
one of them whatever it stands for: every character of it is a printable one.
-/

namespace DebugMetadata.Text

/-- The text has no newline. -/
def IsLine (s : String) : Prop := '\n' ∉ s.toList

instance (s : String) : Decidable (IsLine s) := inferInstanceAs (Decidable ('\n' ∉ s.toList))

@[simp] theorem isLine_append_iff {a b : String} : IsLine (a ++ b) ↔ IsLine a ∧ IsLine b := by
  unfold IsLine
  rw [String.toList_append, List.mem_append, not_or]

theorem isLine_intercalate {separator : String} {items : List String}
    (hseparator : IsLine separator) (hitems : ∀ item ∈ items, IsLine item) :
    IsLine (separator.intercalate items) := by
  induction items with
  | nil =>
      rw [String.intercalate_nil]
      decide
  | cons item rest ih =>
      have hitem := hitems item List.mem_cons_self
      have hrest := ih fun other hother => hitems other (List.mem_cons_of_mem item hother)
      cases rest with
      | nil =>
          rw [String.intercalate_singleton]
          exact hitem
      | cons next rest =>
          rw [String.intercalate_cons_cons, isLine_append_iff, isLine_append_iff]
          exact ⟨⟨hitem, hseparator⟩, hrest⟩

/-! ## Numbers -/

@[simp] theorem isLine_repr (n : Nat) : IsLine n.repr := by
  unfold IsLine
  rw [Nat.toList_repr]
  intro hnewline
  have hdigit := Nat.isDigit_of_mem_toDigits (by omega) (by omega) hnewline
  exact absurd hdigit (by decide)

@[simp] theorem isLine_decimal (value : Int) : IsLine (decimal value) := by
  cases value with
  | ofNat n => exact isLine_repr n
  | negSucc n =>
      rw [decimal, isLine_append_iff]
      exact ⟨by decide, isLine_repr (n + 1)⟩

/-! ## Literals -/

namespace Quoted

private theorem printable_hexDigit :
    ∀ n < 16, 0x20 ≤ (hexDigit n).toNat ∧ (hexDigit n).toNat ≤ 0x7E := by
  decide

/-- What is written of a byte is printable. -/
theorem printable_encodeByte (b : UInt8) {c : Char} (hc : c ∈ encodeByte b) :
    0x20 ≤ c.toNat ∧ c.toNat ≤ 0x7E := by
  rw [encodeByte] at hc
  split at hc
  next hplain =>
    rw [isPlain] at hplain
    simp only [Bool.and_eq_true, decide_eq_true_eq, UInt8.le_iff_toNat_le] at hplain
    obtain ⟨⟨⟨hlow, hhigh⟩, -⟩, -⟩ := hplain
    have hvalid : b.toNat.isValidChar := .inl (by have := b.toNat_lt; omega)
    rw [List.mem_singleton.mp hc, Char.ofNat, dif_pos hvalid]
    exact ⟨hlow, hhigh⟩
  next =>
    have hhigh : b.toNat / 16 < 16 := Nat.div_lt_of_lt_mul b.toNat_lt
    have hlow : b.toNat % 16 < 16 := Nat.mod_lt _ (by decide)
    rcases List.mem_cons.mp hc with rfl | hdigit
    · decide
    · rcases List.mem_pair.mp hdigit with rfl | rfl
      · exact printable_hexDigit _ hhigh
      · exact printable_hexDigit _ hlow

theorem printable_escape (s : String) {c : Char} (hc : c ∈ (escape s).toList) :
    0x20 ≤ c.toNat ∧ c.toNat ≤ 0x7E := by
  rw [escape, String.toList_ofList] at hc
  obtain ⟨b, -, hb⟩ := List.mem_flatMap.mp hc
  exact printable_encodeByte b hb

@[simp] theorem isLine_literal (s : String) : IsLine (literal s) := by
  have hescape : IsLine (escape s) := by
    intro hnewline
    have hprintable := printable_escape s hnewline
    exact absurd hprintable.1 (by decide)
  rw [literal, isLine_append_iff, isLine_append_iff]
  exact ⟨⟨by decide, hescape⟩, by decide⟩

end Quoted

end DebugMetadata.Text

namespace DebugMetadata

open Text (IsLine isLine_append_iff isLine_intercalate)

@[simp] theorem Ty.isLine_text (ty : Ty) : IsLine ty.text := by
  cases ty <;> decide

@[simp] theorem Signature.isLine_text (s : Signature) : IsLine s.text := by
  have hparams : IsLine (", ".intercalate (s.params.map Ty.text)) := by
    apply isLine_intercalate (by decide)
    intro item hitem
    obtain ⟨ty, -, rfl⟩ := List.mem_map.mp hitem
    exact ty.isLine_text
  simp only [Signature.text, Signature.paramsText, isLine_append_iff]
  exact ⟨⟨s.result.isLine_text, by decide⟩, ⟨by decide, hparams⟩, by decide⟩

end DebugMetadata

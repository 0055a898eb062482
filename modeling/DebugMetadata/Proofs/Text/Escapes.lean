import DebugMetadata.Proofs.Text.Lines
import DebugMetadata.Proofs.Text.Quoted

/-!
# The form of escaped texts

An escaped text is made of characters that stand for themselves and of escapes, and holds
neither a quote nor anything that is not printable.  It is written byte by byte, so that it
can be read back and put together from the escaped texts of its parts.
-/

namespace DebugMetadata.Text

theorem Utf8.ofString_eq_toUTF8 (s : String) : Utf8.ofString s = s.toUTF8.data.toList := by
  rw [String.toUTF8_eq_toByteArray, ← String.utf8Encode_toList, List.utf8Encode,
    List.data_toByteArray]
  rfl

theorem Utf8.ofString_append (s t : String) :
    Utf8.ofString (s ++ t) = Utf8.ofString s ++ Utf8.ofString t := by
  rw [ofString, String.toList_append, encode_append]
  rfl

namespace Quoted

/-- An upper-case hexadecimal digit. -/
def IsHexDigit (c : Char) : Prop := ('0' ≤ c ∧ c ≤ '9') ∨ ('A' ≤ c ∧ c ≤ 'F')

instance (c : Char) : Decidable (IsHexDigit c) :=
  inferInstanceAs (Decidable (('0' ≤ c ∧ c ≤ '9') ∨ ('A' ≤ c ∧ c ≤ 'F')))

/-- Printable characters other than the quote and the backslash, and escapes of a backslash
and two hexadecimal digits, in any order. -/
inductive IsEscaped : List Char → Prop where
  | nil : IsEscaped []
  | plain {c : Char} {rest : List Char} (hlow : 0x20 ≤ c.toNat) (hhigh : c.toNat ≤ 0x7E)
      (hquote : c ≠ '"') (hbackslash : c ≠ '\\') (h : IsEscaped rest) : IsEscaped (c :: rest)
  | escape {high low : Char} {rest : List Char} (hhigh : IsHexDigit high) (hlow : IsHexDigit low)
      (h : IsEscaped rest) : IsEscaped ('\\' :: high :: low :: rest)

theorem IsHexDigit.ne_backslash {c : Char} (h : IsHexDigit c) : c ≠ '\\' := by
  rintro rfl
  exact absurd h (by decide)

theorem isHexDigit_hexDigit : ∀ n < 16, IsHexDigit (hexDigit n) := by
  decide

namespace IsEscaped

variable {s t before after : List Char}

theorem append (hs : IsEscaped s) (ht : IsEscaped t) : IsEscaped (s ++ t) := by
  induction hs with
  | nil => exact ht
  | plain hlow hhigh hquote hbackslash _ ih => exact .plain hlow hhigh hquote hbackslash ih
  | escape hhigh hlow _ ih => exact .escape hhigh hlow ih

/-- Behind a backslash are the two digits of its escape, and then the text goes on as if it
started there. -/
theorem exists_digits (h : IsEscaped s) (hs : s = before ++ '\\' :: after) :
    ∃ high low rest, after = high :: low :: rest ∧ IsHexDigit high ∧ IsHexDigit low ∧
      IsEscaped rest := by
  induction h generalizing before with
  | nil => exact absurd hs (by simp)
  | plain hlow hhigh hquote hbackslash hrest ih =>
      cases before with
      | nil => exact absurd (List.cons.inj hs).1 hbackslash
      | cons c before => exact ih (List.cons.inj hs).2
  | @escape high low rest hhigh hlow hrest ih =>
      -- The only backslash of an escape is its first character.
      match before, hs with
      | [], hs => exact ⟨high, low, rest, (List.cons.inj hs).2.symm, hhigh, hlow, hrest⟩
      | [_], hs => exact absurd (List.cons.inj (List.cons.inj hs).2).1 hhigh.ne_backslash
      | [_, _], hs =>
          exact absurd (List.cons.inj (List.cons.inj (List.cons.inj hs).2).2).1 hlow.ne_backslash
      | _ :: _ :: _ :: before, hs =>
          exact ih (List.cons.inj (List.cons.inj (List.cons.inj hs).2).2).2

end IsEscaped

theorem isEscaped_encodeByte (b : UInt8) : IsEscaped (encodeByte b) := by
  by_cases hplain : isPlain b = true
  · have hbyte : encodeByte b = [Char.ofNat b.toNat] := if_pos hplain
    obtain ⟨hlow, hhigh⟩ := printable_encodeByte b (hbyte ▸ List.mem_cons_self)
    obtain ⟨hbackslash, hquote⟩ := ofNat_ne_of_isPlain hplain
    rw [hbyte]
    exact .plain hlow hhigh hquote hbackslash .nil
  · have hhigh : b.toNat / 16 < 16 := Nat.div_lt_of_lt_mul b.toNat_lt
    have hlow : b.toNat % 16 < 16 := Nat.mod_lt _ (by decide)
    rw [encodeByte, if_neg hplain]
    exact .escape (isHexDigit_hexDigit _ hhigh) (isHexDigit_hexDigit _ hlow) .nil

theorem isEscaped_encode (bytes : List UInt8) : IsEscaped (encode bytes) := by
  induction bytes with
  | nil => exact .nil
  | cons b bytes ih =>
      rw [encode_cons]
      exact (isEscaped_encodeByte b).append ih

theorem toList_escape (s : String) : (escape s).toList = encode (Utf8.ofString s) :=
  String.toList_ofList

/-- Escaping writes a text with printable ASCII characters and without a quote.  Every
backslash starts an escape of two digits, and reading the escapes from left to right gives
the UTF-8 bytes of the text.  So no two texts are written the same, and a text that is put
together is written part by part. -/
theorem escape_is_reversible :
    (∀ s : String,
      (∀ c ∈ (escape s).toList, 0x20 ≤ c.toNat ∧ c.toNat ≤ 0x7E ∧ c ≠ '"') ∧
      (∀ before after, (escape s).toList = before ++ '\\' :: after →
        ∃ high low rest, after = high :: low :: rest ∧ IsHexDigit high ∧ IsHexDigit low ∧
          IsEscaped rest) ∧
      decode? (escape s).toList = some s.toUTF8.data.toList) ∧
    (∀ s t, escape s = escape t → s = t) ∧
    ∀ s t, escape (s ++ t) = escape s ++ escape t := by
  refine ⟨?_, fun s t => escape_inj.mp, ?_⟩
  · intro s
    have hescaped : IsEscaped (escape s).toList := toList_escape s ▸ isEscaped_encode _
    refine ⟨?_, fun before after => hescaped.exists_digits, ?_⟩
    · intro c hc
      obtain ⟨hlow, hhigh⟩ := printable_escape s hc
      refine ⟨hlow, hhigh, ?_⟩
      rintro rfl
      exact quote_not_mem_escape s hc
    · rw [toList_escape, decode?_encode, Utf8.ofString_eq_toUTF8]
  · intro s t
    rw [escape, Utf8.ofString_append, encode_append, String.ofList_append]
    rfl

/-- A quote, a backslash, the byte 0x7F and a character of four bytes. -/
example : escape "a\"\\\x7f😀" = "a\\22\\5C\\7F\\F0\\9F\\98\\80" := by decide +kernel

end Quoted

end DebugMetadata.Text

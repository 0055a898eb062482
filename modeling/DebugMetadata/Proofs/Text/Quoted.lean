import DebugMetadata.Proofs.Text.Utf8
import DebugMetadata.Text.Quoted

/-!
# Reading quoted literals

What is between the quotes of a literal tells the text that it stands for, and holds no
quote of its own.
-/

namespace DebugMetadata.Text.Quoted

theorem hexValue?_hexDigit : ∀ n < 16, hexValue? (hexDigit n) = some n := by
  decide

theorem toNat_ofNat_byte (b : UInt8) : (Char.ofNat b.toNat).toNat = b.toNat := by
  have hvalid : b.toNat.isValidChar := .inl (by have := b.toNat_lt; omega)
  rw [Char.ofNat, dif_pos hvalid]
  rfl

/-- A plain byte is neither a backslash nor a quote. -/
theorem ofNat_ne_of_isPlain {b : UInt8} (hplain : isPlain b = true) :
    Char.ofNat b.toNat ≠ '\\' ∧ Char.ofNat b.toNat ≠ '"' := by
  have hbyte (n : UInt8) (h : Char.ofNat b.toNat = Char.ofNat n.toNat) : b = n := by
    have hsame := congrArg Char.toNat h
    rw [toNat_ofNat_byte, toNat_ofNat_byte] at hsame
    exact UInt8.toNat_inj.mp hsame
  constructor
  · intro h
    rw [hbyte 0x5C h] at hplain
    exact absurd hplain (by decide)
  · intro h
    rw [hbyte 0x22 h] at hplain
    exact absurd hplain (by decide)

theorem decode?_cons {c : Char} (hc : c ≠ '\\') (rest : List Char) :
    decode? (c :: rest) = (decode? rest).map (UInt8.ofNat c.toNat :: ·) := by
  rw [decode?, if_neg hc]
  intro h l rest' hescape
  exact absurd hescape hc

theorem decode?_encodeByte_append (b : UInt8) (rest : List Char) :
    decode? (encodeByte b ++ rest) = (decode? rest).map (b :: ·) := by
  rw [encodeByte]
  split
  next hplain =>
    rw [List.singleton_append, decode?_cons (ofNat_ne_of_isPlain hplain).1, toNat_ofNat_byte,
      UInt8.ofNat_toNat]
  next =>
    have hhigh : b.toNat / 16 < 16 := Nat.div_lt_of_lt_mul b.toNat_lt
    have hlow : b.toNat % 16 < 16 := Nat.mod_lt _ (by decide)
    rw [List.cons_append, List.cons_append, List.singleton_append, decode?,
      hexValue?_hexDigit _ hhigh, hexValue?_hexDigit _ hlow, Option.bind_eq_bind, Option.bind_some,
      Option.bind_eq_bind, Option.bind_some, Nat.div_add_mod, UInt8.ofNat_toNat]
    cases decode? rest <;> rfl

theorem decode?_encode (bytes : List UInt8) : decode? (encode bytes) = some bytes := by
  induction bytes with
  | nil => rfl
  | cons b bytes ih =>
      rw [encode_cons, decode?_encodeByte_append, ih]
      rfl

theorem escape_inj {s t : String} : escape s = escape t ↔ s = t := by
  refine ⟨fun h => ?_, congrArg escape⟩
  have hencode : encode (Utf8.ofString s) = encode (Utf8.ofString t) :=
    String.ofList_inj.mp h
  have hbytes : Utf8.ofString s = Utf8.ofString t := by
    have hdecode := congrArg decode? hencode
    rw [decode?_encode, decode?_encode] at hdecode
    exact Option.some.inj hdecode
  rw [← Utf8.text_ofString s, hbytes, Utf8.text_ofString]

private theorem quote_ne_hexDigit : ∀ n < 16, '"' ≠ hexDigit n := by
  decide

theorem quote_not_mem_encodeByte (b : UInt8) : '"' ∉ encodeByte b := by
  rw [encodeByte]
  split
  next hplain =>
    rw [List.mem_singleton]
    exact (ofNat_ne_of_isPlain hplain).2.symm
  next =>
    have hhigh : b.toNat / 16 < 16 := Nat.div_lt_of_lt_mul b.toNat_lt
    have hlow : b.toNat % 16 < 16 := Nat.mod_lt _ (by decide)
    rw [List.mem_cons, List.mem_pair, not_or, not_or]
    exact ⟨by decide, quote_ne_hexDigit _ hhigh, quote_ne_hexDigit _ hlow⟩

theorem quote_not_mem_escape (s : String) : '"' ∉ (escape s).toList := by
  rw [escape, String.toList_ofList]
  intro hquote
  obtain ⟨b, -, hb⟩ := List.mem_flatMap.mp hquote
  exact quote_not_mem_encodeByte b hb

end DebugMetadata.Text.Quoted

import DebugMetadata.Proofs.Lists
import DebugMetadata.Proofs.Text.Escapes
import DebugMetadata.Proofs.Text.Utf8

/-!
# Reading UTF-8 strictly

Strict reading accepts what is written and nothing else.  A character that is read has the
bytes that it is written with, since its first byte leaves no room for a longer or shorter
form, so bytes read without an ill-formed piece are the bytes of the text they are read as.
-/

namespace DebugMetadata.Text.Utf8

variable {p : Pending} {b b₁ b₂ b₃ b₄ : UInt8} {bytes rest : List UInt8} {c : Char}
  {bits n : Nat} {out : List (Option Char)}

/-! ## The bytes that a character is written with -/

def IsContinuation (b : UInt8) : Prop := 0x80 ≤ b.toNat ∧ b.toNat ≤ 0xBF

theorem toNat_val_ofNat (h : n.isValidChar) : (Char.ofNat n).val.toNat = n := by
  rw [Char.ofNat, dif_pos h]
  rfl

theorem ofNat_eq_of_toNat_eq (h : n = b.toNat) : UInt8.ofNat n = b := by
  rw [h, UInt8.ofNat_toNat]

theorem utf8EncodeChar_one (h : b.toNat < 0x80) :
    String.utf8EncodeChar (Char.ofNat b.toNat) = [b] := by
  unfold String.utf8EncodeChar
  extract_lets v
  have hv : v = b.toNat := toNat_val_ofNat (.inl (by omega))
  rw [if_pos (by omega), ofNat_eq_of_toNat_eq hv]

theorem utf8EncodeChar_two (hlow : 2 ≤ bits) (hhigh : bits < 32)
    (h₁ : b₁.toNat = bits + 0xC0) (h₂ : IsContinuation b₂) :
    String.utf8EncodeChar (Char.ofNat (bits * 64 + b₂.toNat % 64)) = [b₁, b₂] := by
  have ⟨_, _⟩ := h₂
  unfold String.utf8EncodeChar
  extract_lets v
  have hv : v = bits * 64 + b₂.toNat % 64 := toNat_val_ofNat (.inl (by omega))
  rw [if_neg (by omega), if_pos (by omega), ofNat_eq_of_toNat_eq (b := b₁) (by omega),
    ofNat_eq_of_toNat_eq (b := b₂) (by omega)]

theorem utf8EncodeChar_three (hhigh : bits < 16) (h₁ : b₁.toNat = bits + 0xE0)
    (h₂ : IsContinuation b₂) (h₃ : IsContinuation b₃) (hlong : bits = 0 → 0xA0 ≤ b₂.toNat)
    (hsurrogate : bits = 13 → b₂.toNat ≤ 0x9F) :
    String.utf8EncodeChar
        (Char.ofNat ((bits * 64 + b₂.toNat % 64) * 64 + b₃.toNat % 64)) = [b₁, b₂, b₃] := by
  have ⟨_, _⟩ := h₂
  have ⟨_, _⟩ := h₃
  unfold String.utf8EncodeChar
  extract_lets v
  have hv : v = (bits * 64 + b₂.toNat % 64) * 64 + b₃.toNat % 64 := by
    refine toNat_val_ofNat ?_
    unfold Nat.isValidChar
    omega
  rw [if_neg (by omega), if_neg (by omega), if_pos (by omega),
    ofNat_eq_of_toNat_eq (b := b₁) (by omega), ofNat_eq_of_toNat_eq (b := b₂) (by omega),
    ofNat_eq_of_toNat_eq (b := b₃) (by omega)]

theorem utf8EncodeChar_four (hhigh : bits ≤ 4) (h₁ : b₁.toNat = bits + 0xF0)
    (h₂ : IsContinuation b₂) (h₃ : IsContinuation b₃) (h₄ : IsContinuation b₄)
    (hlong : bits = 0 → 0x90 ≤ b₂.toNat) (hlast : bits = 4 → b₂.toNat ≤ 0x8F) :
    String.utf8EncodeChar
        (Char.ofNat (((bits * 64 + b₂.toNat % 64) * 64 + b₃.toNat % 64) * 64 + b₄.toNat % 64)) =
      [b₁, b₂, b₃, b₄] := by
  have ⟨_, _⟩ := h₂
  have ⟨_, _⟩ := h₃
  have ⟨_, _⟩ := h₄
  unfold String.utf8EncodeChar
  extract_lets v
  have hv : v = ((bits * 64 + b₂.toNat % 64) * 64 + b₃.toNat % 64) * 64 + b₄.toNat % 64 := by
    refine toNat_val_ofNat ?_
    unfold Nat.isValidChar
    omega
  rw [if_neg (by omega), if_neg (by omega), if_neg (by omega),
    ofNat_eq_of_toNat_eq (b := b₁) (by omega), ofNat_eq_of_toNat_eq (b := b₂) (by omega),
    ofNat_eq_of_toNat_eq (b := b₃) (by omega), ofNat_eq_of_toNat_eq (b := b₄) (by omega)]

/-! ## The bytes that a character is read from -/

/-- The first bytes of two, three and four, and what they leave open for the second. -/
inductive Opens (b : UInt8) : Pending → Prop where
  | two {bits : Nat} (hlow : 2 ≤ bits) (hhigh : bits < 32) (hb : b.toNat = bits + 0xC0) :
      Opens b ⟨bits, 0x80, 0xBF, 0⟩
  | three {bits lo hi : Nat} (hhigh : bits < 16) (hb : b.toNat = bits + 0xE0) (hlo : 0x80 ≤ lo)
      (hhi : hi ≤ 0xBF) (hlong : bits = 0 → 0xA0 ≤ lo) (hsurrogate : bits = 13 → hi ≤ 0x9F) :
      Opens b ⟨bits, lo, hi, 1⟩
  | four {bits lo hi : Nat} (hhigh : bits ≤ 4) (hb : b.toNat = bits + 0xF0) (hlo : 0x80 ≤ lo)
      (hhi : hi ≤ 0xBF) (hlong : bits = 0 → 0x90 ≤ lo) (hlast : bits = 4 → hi ≤ 0x8F) :
      Opens b ⟨bits, lo, hi, 2⟩

theorem opens_of_lead (h : lead b = .opening p) : Opens b p := by
  unfold lead at h
  extract_lets n at h
  split at h
  next => cases h
  split at h
  next => cases h
  split at h
  next =>
    obtain rfl := Lead.opening.inj h
    exact .two (by omega) (by omega) (by omega)
  iterate 3
    split at h
    next =>
      obtain rfl := Lead.opening.inj h
      exact .three (by omega) (by omega) (by omega) (by omega) (by omega) (by omega)
  iterate 3
    split at h
    next =>
      obtain rfl := Lead.opening.inj h
      exact .four (by omega) (by omega) (by omega) (by omega) (by omega) (by omega)
  cases h

theorem start_of_lead (h : lead b = .opening p) : start b = ([], some p) := by
  rw [start, h]

/-- A character that is read to its end has a next byte, and the byte is in its range. -/
theorem exists_next (h : readFrom (some p) bytes = some c :: out) :
    ∃ b rest, bytes = b :: rest ∧ p.lo ≤ b.toNat ∧ b.toNat ≤ p.hi ∧
      readFrom (some p) bytes = (step (some p) b).1 ++ readFrom (step (some p) b).2 rest := by
  cases bytes with
  | nil => cases (List.cons.inj h).1
  | cons b rest =>
      refine ⟨b, rest, rfl, ?_⟩
      rw [readFrom_cons] at h
      by_cases hrange : p.lo ≤ b.toNat ∧ b.toNat ≤ p.hi
      · exact ⟨hrange.1, hrange.2, readFrom_cons _ _ _⟩
      · rw [step, if_neg hrange] at h
        cases (List.cons.inj h).1

theorem exists_last {lo hi : Nat} (h : readFrom (some ⟨bits, lo, hi, 0⟩) bytes = some c :: out) :
    ∃ b rest, bytes = b :: rest ∧ lo ≤ b.toNat ∧ b.toNat ≤ hi ∧
      c = Char.ofNat (bits * 64 + b.toNat % 64) ∧ read rest = out := by
  obtain ⟨b, rest, hbytes, hlo, hhi, hread⟩ := exists_next h
  rw [hread, step, if_pos ⟨hlo, hhi⟩] at h
  obtain ⟨hc, hout⟩ := List.cons.inj h
  exact ⟨b, rest, hbytes, hlo, hhi, (Option.some.inj hc).symm, hout⟩

theorem exists_more {lo hi owed : Nat}
    (h : readFrom (some ⟨bits, lo, hi, owed + 1⟩) bytes = some c :: out) :
    ∃ b rest, bytes = b :: rest ∧ lo ≤ b.toNat ∧ b.toNat ≤ hi ∧
      readFrom (some ⟨bits * 64 + b.toNat % 64, 0x80, 0xBF, owed⟩) rest = some c :: out := by
  obtain ⟨b, rest, hbytes, hlo, hhi, hread⟩ := exists_next h
  rw [hread, step, if_pos ⟨hlo, hhi⟩] at h
  exact ⟨b, rest, hbytes, hlo, hhi, h⟩

/-- An open character is read from the bytes that it is written with. -/
theorem Opens.exists_rest (hp : Opens b p) (h : readFrom (some p) bytes = some c :: out) :
    ∃ rest, b :: bytes = String.utf8EncodeChar c ++ rest ∧ read rest = out := by
  cases hp with
  | two hlow hhigh hb =>
      obtain ⟨b₂, rest, rfl, hlo₂, hhi₂, rfl, hout⟩ := exists_last h
      refine ⟨rest, ?_, hout⟩
      rw [utf8EncodeChar_two hlow hhigh hb ⟨hlo₂, hhi₂⟩]
      rfl
  | three hhigh hb hlo hhi hlong hsurrogate =>
      obtain ⟨b₂, _, rfl, hlo₂, hhi₂, h⟩ := exists_more h
      obtain ⟨b₃, rest, rfl, hlo₃, hhi₃, rfl, hout⟩ := exists_last h
      have h₂ : IsContinuation b₂ := ⟨Nat.le_trans hlo hlo₂, Nat.le_trans hhi₂ hhi⟩
      refine ⟨rest, ?_, hout⟩
      rw [utf8EncodeChar_three hhigh hb h₂ ⟨hlo₃, hhi₃⟩
        (fun hbits => Nat.le_trans (hlong hbits) hlo₂)
        fun hbits => Nat.le_trans hhi₂ (hsurrogate hbits)]
      rfl
  | four hhigh hb hlo hhi hlong hlast =>
      obtain ⟨b₂, _, rfl, hlo₂, hhi₂, h⟩ := exists_more h
      obtain ⟨b₃, _, rfl, hlo₃, hhi₃, h⟩ := exists_more h
      obtain ⟨b₄, rest, rfl, hlo₄, hhi₄, rfl, hout⟩ := exists_last h
      have h₂ : IsContinuation b₂ := ⟨Nat.le_trans hlo hlo₂, Nat.le_trans hhi₂ hhi⟩
      refine ⟨rest, ?_, hout⟩
      rw [utf8EncodeChar_four hhigh hb h₂ ⟨hlo₃, hhi₃⟩ ⟨hlo₄, hhi₄⟩
        (fun hbits => Nat.le_trans (hlong hbits) hlo₂)
        fun hbits => Nat.le_trans hhi₂ (hlast hbits)]
      rfl

theorem exists_of_read_cons (h : read bytes = some c :: out) :
    ∃ rest, bytes = String.utf8EncodeChar c ++ rest ∧ read rest = out := by
  cases bytes with
  | nil => cases h
  | cons b bytes =>
      rw [read, readFrom_cons, step] at h
      cases hlead : lead b with
      | single c' =>
          have hfits := fits_lead b
          rw [hlead] at hfits
          rw [start, hlead] at h
          obtain ⟨hc, hout⟩ := List.cons.inj h
          refine ⟨bytes, ?_, hout⟩
          rw [← Option.some.inj hc, hfits.2, utf8EncodeChar_one hfits.1]
          rfl
      | opening p =>
          rw [start_of_lead hlead] at h
          exact (opens_of_lead hlead).exists_rest h
      | stray =>
          rw [start, hlead] at h
          cases (List.cons.inj h).1

/-! ## Texts -/

theorem read_eq_map_some_iff {s : List Char} : read bytes = s.map some ↔ bytes = encode s := by
  constructor
  · intro h
    induction s generalizing bytes with
    | nil =>
        refine decode_eq_nil_iff.mp ?_
        rw [decode, h]
        rfl
    | cons c s ih =>
        obtain ⟨rest, hbytes, hrest⟩ := exists_of_read_cons h
        rw [hbytes, ih hrest, encode_cons]
  · rintro rfl
    exact read_encode s

theorem decode?_eq_some_iff {s : List Char} : decode? bytes = some s ↔ bytes = encode s := by
  rw [decode?, mapM_eq_some_iff, ← read_eq_map_some_iff, ← List.forall₂_eq_eq_eq,
    List.forall₂_map_right_iff]
  rfl

theorem text?_eq_some_iff {s : String} : text? bytes = some s ↔ bytes = ofString s := by
  rw [text?, Option.map_eq_some_iff, ofString]
  constructor
  · rintro ⟨chars, hchars, rfl⟩
    rw [String.toList_ofList]
    exact decode?_eq_some_iff.mp hchars
  · intro h
    exact ⟨s.toList, decode?_eq_some_iff.mpr h, String.ofList_toList⟩

end DebugMetadata.Text.Utf8

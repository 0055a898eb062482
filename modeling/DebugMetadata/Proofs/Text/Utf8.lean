import DebugMetadata.Text.Utf8
import Mathlib.Algebra.Group.Nat.Defs
import Mathlib.Data.List.Basic

/-!
# Reading UTF-8

What is written is read back.  A byte below 0x80 stands for its character wherever it is:
it ends whatever was open before it, and no other bytes are read as that character.  So
lenient reading keeps every ASCII separator in its place and makes no new one.
-/

namespace DebugMetadata.Text.Utf8

variable {p : Pending} {state : State} {b : UInt8} {bytes rest : List UInt8} {c : Char}

/-! ## Open characters -/

/-- Only continuation bytes continue the character, and however it ends it is above ASCII. -/
structure Pending.IsOpen (p : Pending) : Prop where
  lo : 0x80 ≤ p.lo
  hi : p.hi ≤ 0xBF
  above : 0x80 ≤ (p.bits * 64 + p.lo % 64) * 64 ^ p.owed

theorem Pending.isOpen_mk {bits lo hi owed : Nat} (hlo : 0x80 ≤ lo) (hhi : hi ≤ 0xBF)
    (habove : 0x80 ≤ (bits * 64 + lo % 64) * 64 ^ owed) :
    (⟨bits, lo, hi, owed⟩ : Pending).IsOpen :=
  ⟨hlo, hhi, habove⟩

/-- The bits read so far count for 64 times as much when one byte more is owed. -/
theorem Pending.IsOpen.below_bits (h : p.IsOpen) (hlo : p.lo ≤ b.toNat) (hhi : b.toNat ≤ p.hi) :
    0x80 ≤ (p.bits * 64 + b.toNat % 64) * 64 ^ p.owed := by
  have hbyte : p.lo % 64 ≤ b.toNat % 64 := by
    have := h.lo
    have := h.hi
    omega
  exact Nat.le_trans h.above (Nat.mul_le_mul_right _ (Nat.add_le_add_left hbyte _))

/-- What the byte means fits it: an ASCII byte is its character. -/
def Lead.Fits (b : UInt8) : Lead → Prop
  | .single c => b.toNat < 0x80 ∧ c = Char.ofNat b.toNat
  | .opening p => p.IsOpen
  | .stray => True

private theorem Lead.fits_ite {P : Prop} [Decidable P] {l l' : Lead} (h' : ¬P → l'.Fits b)
    (h : P → l.Fits b) : (if P then l else l').Fits b := by
  split
  next hP => exact h hP
  next hP => exact h' hP

theorem fits_lead (b : UInt8) : (lead b).Fits b := by
  have hopen {bits lo hi owed : Nat} (hlo : 0x80 ≤ lo) (hhi : hi ≤ 0xBF)
      (habove : 0x80 ≤ (bits * 64 + lo % 64) * 64 ^ owed) :
      (Lead.opening ⟨bits, lo, hi, owed⟩).Fits b := ⟨hlo, hhi, habove⟩
  unfold lead
  extract_lets n
  refine Lead.fits_ite (fun _ => ?_) fun hn => ⟨hn, rfl⟩
  iterate 8 refine Lead.fits_ite (fun _ => ?_) fun _ => ?_
  all_goals first | exact hopen (by omega) (by omega) (by omega) | exact True.intro

theorem start_cases (b : UInt8) :
    (b.toNat < 0x80 ∧ start b = ([some (Char.ofNat b.toNat)], none)) ∨
      (∃ p : Pending, p.IsOpen ∧ start b = ([], some p)) ∨ start b = ([none], none) := by
  have hfits := fits_lead b
  unfold start
  cases hlead : lead b with
  | single c =>
      rw [hlead] at hfits
      obtain ⟨hb, rfl⟩ := hfits
      exact .inl ⟨hb, rfl⟩
  | opening p =>
      rw [hlead] at hfits
      exact .inr (.inl ⟨p, hfits, rfl⟩)
  | stray => exact .inr (.inr rfl)

/-- A byte starts a character, after what was open is given up, or it ends or continues one. -/
theorem step_cases (h : ∀ p, state = some p → p.IsOpen) (b : UInt8) :
    (∃ broken, (∀ piece ∈ broken, piece = none) ∧
        step state b = (broken ++ (start b).1, (start b).2)) ∨
      (∃ n, 0x80 ≤ n ∧ step state b = ([some (Char.ofNat n)], none)) ∨
      ∃ p : Pending, p.IsOpen ∧ step state b = ([], some p) := by
  cases state with
  | none => exact .inl ⟨[], nofun, rfl⟩
  | some p =>
      rw [step]
      split
      next hrange =>
        have hbits := (h p rfl).below_bits hrange.1 hrange.2
        right
        cases howed : p.owed with
        | zero =>
            rw [howed, Nat.pow_zero, Nat.mul_one] at hbits
            exact .inl ⟨_, hbits, rfl⟩
        | succ owed =>
            rw [howed, Nat.pow_succ', ← Nat.mul_assoc] at hbits
            refine .inr ⟨_, Pending.isOpen_mk (Nat.le_refl _) (Nat.le_refl _) ?_, rfl⟩
            simpa using hbits
      next =>
        refine .inl ⟨[none], ?_, rfl⟩
        intro piece hpiece
        exact List.mem_singleton.mp hpiece

theorem isOpen_none (p : Pending) (h : (none : State) = some p) : p.IsOpen := nomatch h

theorem isOpen_start (h : (start b).2 = some p) : p.IsOpen := by
  rcases start_cases b with ⟨-, hstart⟩ | ⟨q, hq, hstart⟩ | hstart
  · rw [hstart] at h
    cases h
  · rw [hstart] at h
    cases h
    exact hq
  · rw [hstart] at h
    cases h

theorem isOpen_step (h : ∀ p, state = some p → p.IsOpen) (hp : (step state b).2 = some p) :
    p.IsOpen := by
  rcases step_cases h b with ⟨broken, -, hstep⟩ | ⟨n, -, hstep⟩ | ⟨q, hq, hstep⟩
  · rw [hstep] at hp
    exact isOpen_start hp
  · rw [hstep] at hp
    cases hp
  · rw [hstep] at hp
    cases hp
    exact hq

/-! ## ASCII bytes -/

theorem readFrom_cons (state : State) (b : UInt8) (rest : List UInt8) :
    readFrom state (b :: rest) = (step state b).1 ++ readFrom (step state b).2 rest := by
  cases state <;> rfl

theorem start_ascii (hb : b.toNat < 0x80) : start b = ([some (Char.ofNat b.toNat)], none) := by
  rw [start, lead, if_pos hb]

/-- A byte below 0x80 is read as its character, and what is read before it is read as if the
bytes ended there. -/
theorem readFrom_ascii (h : ∀ p, state = some p → p.IsOpen) (hb : b.toNat < 0x80) :
    readFrom state (bytes ++ b :: rest) =
      readFrom state bytes ++ some (Char.ofNat b.toNat) :: readFrom none rest := by
  induction bytes generalizing state with
  | nil =>
      rw [List.nil_append, readFrom_cons]
      cases state with
      | none =>
          rw [step, start_ascii hb]
          rfl
      | some p =>
          have hclosed : ¬(p.lo ≤ b.toNat ∧ b.toNat ≤ p.hi) := by
            have := (h p rfl).lo
            omega
          rw [step, if_neg hclosed, start_ascii hb]
          rfl
  | cons b' bytes ih =>
      rw [List.cons_append, readFrom_cons, readFrom_cons, ih fun p hp => isOpen_step h hp,
        List.append_assoc]

theorem decode_ascii (hb : b.toNat < 0x80) :
    decode (bytes ++ b :: rest) = decode bytes ++ Char.ofNat b.toNat :: decode rest := by
  rw [decode, read, readFrom_ascii isOpen_none hb, List.map_append, List.map_cons]
  rfl

/-- A code point that is none gives the character NUL. -/
theorem toNat_of_ofNat_eq {n : Nat} (h : Char.ofNat n = c) (hpos : 0 < c.toNat) : c.toNat = n := by
  subst h
  by_cases hvalid : n.isValidChar
  · rw [Char.ofNat, dif_pos hvalid]
    rfl
  · rw [Char.ofNat, dif_neg hvalid] at hpos
    cases hpos

theorem toNat_of_mem_start (hpos : 0 < c.toNat) (hmem : some c ∈ (start b).1) :
    b.toNat = c.toNat := by
  rcases start_cases b with ⟨-, hstart⟩ | ⟨p, -, hstart⟩ | hstart
  · rw [hstart, List.mem_singleton] at hmem
    exact (toNat_of_ofNat_eq (Option.some.inj hmem).symm hpos).symm
  · rw [hstart] at hmem
    cases hmem
  · rw [hstart, List.mem_singleton] at hmem
    cases hmem

theorem toNat_of_mem_step (h : ∀ p, state = some p → p.IsOpen) (hpos : 0 < c.toNat)
    (hc : c.toNat < 0x80) (hmem : some c ∈ (step state b).1) : b.toNat = c.toNat := by
  rcases step_cases h b with ⟨broken, hbroken, hstep⟩ | ⟨n, hn, hstep⟩ | ⟨p, -, hstep⟩
  · rw [hstep, List.mem_append] at hmem
    rcases hmem with hmem | hmem
    · cases hbroken _ hmem
    · exact toNat_of_mem_start hpos hmem
  · rw [hstep, List.mem_singleton] at hmem
    have hread := toNat_of_ofNat_eq (Option.some.inj hmem).symm hpos
    omega
  · rw [hstep] at hmem
    cases hmem

theorem exists_of_mem_readFrom (h : ∀ p, state = some p → p.IsOpen) (hpos : 0 < c.toNat)
    (hc : c.toNat < 0x80) (hmem : some c ∈ readFrom state bytes) :
    ∃ b ∈ bytes, b.toNat = c.toNat := by
  induction bytes generalizing state with
  | nil =>
      cases state with
      | none => cases hmem
      | some p =>
          rw [readFrom, List.mem_singleton] at hmem
          cases hmem
  | cons b bytes ih =>
      rw [readFrom_cons, List.mem_append] at hmem
      rcases hmem with hmem | hmem
      · exact ⟨b, List.mem_cons_self, toNat_of_mem_step h hpos hc hmem⟩
      · obtain ⟨b', hb', hsame⟩ := ih (fun p hp => isOpen_step h hp) hmem
        exact ⟨b', List.mem_cons_of_mem b hb', hsame⟩

/-- An ASCII character is read only where its byte is. -/
theorem exists_of_mem_decode (hpos : 0 < c.toNat) (hc : c.toNat < 0x80) (hmem : c ∈ decode bytes) :
    ∃ b ∈ bytes, b.toNat = c.toNat := by
  obtain ⟨piece, hpiece, hread⟩ := List.mem_map.mp hmem
  cases piece with
  | none =>
      cases hread
      exact absurd hc (by decide)
  | some c' =>
      cases hread
      exact exists_of_mem_readFrom isOpen_none hpos hc hpiece

theorem readFrom_some_ne_nil (p : Pending) (bytes : List UInt8) :
    readFrom (some p) bytes ≠ [] := by
  induction bytes generalizing p with
  | nil => exact List.cons_ne_nil _ _
  | cons b bytes ih =>
      rw [readFrom_cons, step]
      split
      next =>
        cases p.owed with
        | zero => exact List.cons_ne_nil _ _
        | succ owed => exact ih _
      next => exact List.cons_ne_nil _ _

/-- No byte is passed over. -/
theorem decode_eq_nil_iff : decode bytes = [] ↔ bytes = [] := by
  rw [decode, List.map_eq_nil_iff, read]
  constructor
  · intro hread
    cases bytes with
    | nil => rfl
    | cons b bytes =>
        rw [readFrom_cons, step] at hread
        rcases start_cases b with ⟨-, hstart⟩ | ⟨p, -, hstart⟩ | hstart
        · rw [hstart] at hread
          cases hread
        · rw [hstart] at hread
          exact absurd hread (readFrom_some_ne_nil p bytes)
        · rw [hstart] at hread
          cases hread
  · rintro rfl
    rfl

/-- Only the bytes of an ASCII text are read as that text. -/
theorem eq_of_decode_eq {s : List Char} (hs : ∀ c ∈ s, 0 < c.toNat ∧ c.toNat < 0x80)
    (h : decode bytes = s) : bytes = s.map fun c => UInt8.ofNat c.toNat := by
  induction s generalizing bytes with
  | nil => exact decode_eq_nil_iff.mp h
  | cons c s ih =>
      obtain ⟨hpos, hc⟩ := hs c List.mem_cons_self
      obtain ⟨b, hb, hsame⟩ := exists_of_mem_decode hpos hc (h ▸ List.mem_cons_self)
      obtain ⟨before, rest, hbytes, hfirst⟩ := List.eq_append_cons_of_mem hb
      rw [hbytes, decode_ascii (by omega), hsame, Char.ofNat_toNat] at h
      have hbefore : decode before = [] := by
        cases hdecode : decode before with
        | nil => rfl
        | cons c' s' =>
            rw [hdecode] at h
            have hhead : c' = c := (List.cons.inj h).1
            have hmem : c ∈ decode before := by
              rw [hdecode, hhead]
              exact List.mem_cons_self
            obtain ⟨b', hb', hsame'⟩ := exists_of_mem_decode hpos hc hmem
            rw [UInt8.toNat_inj.mp (hsame'.trans hsame.symm)] at hb'
            exact absurd hb' hfirst
      rw [hbefore, List.nil_append] at h
      have hrest := ih (fun c' hc' => hs c' (List.mem_cons_of_mem c hc')) (List.cons.inj h).2
      rw [hbytes, decode_eq_nil_iff.mp hbefore, hrest, List.map_cons, ← hsame, UInt8.ofNat_toNat]
      rfl

@[simp] theorem toList_text (bytes : List UInt8) : (text bytes).toList = decode bytes :=
  String.toList_ofList

theorem decode_eq_of_text_eq {s : String} (h : text bytes = s) : decode bytes = s.toList := by
  rw [← h, toList_text]

/-! ## Reading what is written -/

theorem toNat_continuation (n : Nat) : (UInt8.ofNat (n % 64 + 128)).toNat = n % 64 + 128 := by
  rw [UInt8.toNat_ofNat']
  omega

theorem readFrom_last {bits lo hi n : Nat} (hlo : lo ≤ n % 64 + 128) (hhi : n % 64 + 128 ≤ hi) :
    readFrom (some ⟨bits, lo, hi, 0⟩) (UInt8.ofNat (n % 64 + 128) :: rest) =
      some (Char.ofNat (bits * 64 + n % 64)) :: readFrom none rest := by
  have hbits : (n % 64 + 128) % 64 = n % 64 := by omega
  rw [readFrom_cons, step, toNat_continuation, if_pos ⟨hlo, hhi⟩, hbits]
  rfl

theorem readFrom_more {bits lo hi owed n : Nat} (hlo : lo ≤ n % 64 + 128)
    (hhi : n % 64 + 128 ≤ hi) :
    readFrom (some ⟨bits, lo, hi, owed + 1⟩) (UInt8.ofNat (n % 64 + 128) :: rest) =
      readFrom (some ⟨bits * 64 + n % 64, 0x80, 0xBF, owed⟩) rest := by
  have hbits : (n % 64 + 128) % 64 = n % 64 := by omega
  rw [readFrom_cons, step, toNat_continuation, if_pos ⟨hlo, hhi⟩, hbits]
  rfl

theorem readFrom_opening (h : lead b = .opening p) :
    readFrom none (b :: rest) = readFrom (some p) rest := by
  rw [readFrom_cons, step, start, h]
  rfl

theorem lead_two {v : Nat} (hlow : ¬v ≤ 127) (hhigh : v ≤ 2047) :
    lead (UInt8.ofNat (v / 64 % 32 + 192)) = .opening ⟨v / 64, 0x80, 0xBF, 0⟩ := by
  have hbyte : (UInt8.ofNat (v / 64 % 32 + 192)).toNat = v / 64 + 192 := by
    rw [UInt8.toNat_ofNat']
    omega
  rw [lead, hbyte, if_neg (by omega), if_neg (by omega), if_pos (by omega), Nat.add_sub_cancel]

theorem lead_three {v : Nat} (hlow : ¬v ≤ 2047) (hhigh : v ≤ 65535) (hvalid : v.isValidChar) :
    ∃ bits lo hi, lead (UInt8.ofNat (v / 4096 % 16 + 224)) = .opening ⟨bits, lo, hi, 1⟩ ∧
      bits = v / 4096 ∧ lo ≤ v / 64 % 64 + 128 ∧ v / 64 % 64 + 128 ≤ hi := by
  have hbyte : (UInt8.ofNat (v / 4096 % 16 + 224)).toNat = v / 4096 + 224 := by
    rw [UInt8.toNat_ofNat']
    omega
  rw [lead, hbyte, if_neg (by omega), if_neg (by omega), if_neg (by omega)]
  split
  next => exact ⟨_, _, _, rfl, by omega, by omega, by omega⟩
  split
  next => exact ⟨_, _, _, rfl, by omega, by omega, by omega⟩
  rw [if_pos (by omega)]
  exact ⟨_, _, _, rfl, by omega, by omega, by omega⟩

theorem lead_four {v : Nat} (hlow : ¬v ≤ 65535) (hvalid : v.isValidChar) :
    ∃ bits lo hi, lead (UInt8.ofNat (v / 262144 % 8 + 240)) = .opening ⟨bits, lo, hi, 2⟩ ∧
      bits = v / 262144 ∧ lo ≤ v / 4096 % 64 + 128 ∧ v / 4096 % 64 + 128 ≤ hi := by
  have hbyte : (UInt8.ofNat (v / 262144 % 8 + 240)).toNat = v / 262144 + 240 := by
    rw [UInt8.toNat_ofNat']
    omega
  rw [lead, hbyte, if_neg (by omega), if_neg (by omega), if_neg (by omega), if_neg (by omega),
    if_neg (by omega), if_neg (by omega)]
  split
  next => exact ⟨_, _, _, rfl, by omega, by omega, by omega⟩
  split
  next => exact ⟨_, _, _, rfl, by omega, by omega, by omega⟩
  rw [if_pos (by omega)]
  exact ⟨_, _, _, rfl, by omega, by omega, by omega⟩

theorem read_utf8EncodeChar_append (c : Char) (rest : List UInt8) :
    read (String.utf8EncodeChar c ++ rest) = some c :: read rest := by
  have hchar {n : Nat} (h : n = c.val.toNat) : some (Char.ofNat n) = some c := by
    rw [h]
    exact congrArg some (Char.ofNat_toNat c)
  have hvalid : c.val.toNat.isValidChar := c.valid
  unfold read String.utf8EncodeChar
  extract_lets v
  split
  next hone =>
    have hbyte : (UInt8.ofNat v).toNat = v := by
      rw [UInt8.toNat_ofNat']
      omega
    rw [List.singleton_append, readFrom_cons, step, start_ascii (by omega), hbyte, hchar rfl]
    rfl
  split
  next hlow htwo =>
    rw [List.cons_append, readFrom_opening (lead_two hlow htwo), List.singleton_append,
      readFrom_last (by omega) (by omega), hchar (by omega)]
  split
  next hlow hthree =>
    obtain ⟨bits, lo, hi, hlead, hbits, hlo, hhi⟩ := lead_three hlow hthree hvalid
    rw [List.cons_append, readFrom_opening hlead, List.cons_append, readFrom_more hlo hhi,
      List.singleton_append, readFrom_last (by omega) (by omega), hchar (by omega)]
  next hlow =>
    obtain ⟨bits, lo, hi, hlead, hbits, hlo, hhi⟩ := lead_four hlow hvalid
    rw [List.cons_append, readFrom_opening hlead, List.cons_append, readFrom_more hlo hhi,
      List.cons_append, readFrom_more (by omega) (by omega), List.singleton_append,
      readFrom_last (by omega) (by omega), hchar (by omega)]

theorem read_encode (s : List Char) : read (encode s) = s.map some := by
  induction s with
  | nil => rfl
  | cons c s ih => rw [encode_cons, read_utf8EncodeChar_append, ih, List.map_cons]

@[simp] theorem decode_encode (s : List Char) : decode (encode s) = s := by
  rw [decode, read_encode, List.map_map]
  exact List.map_id _

@[simp] theorem text_ofString (s : String) : text (ofString s) = s := by
  rw [text, ofString, decode_encode, String.ofList_toList]

end DebugMetadata.Text.Utf8

/-!
# UTF-8

The bytes of a text, and bytes read as text.  Reading is a machine that takes
one byte at a time: between characters it is idle, inside a character it knows
the bits read so far and the range that the next byte must lie in.  What it
yields is a list with a character for every well-formed sequence and `none` for
every maximal ill-formed piece, so strict and lenient reading differ only in
what they make of `none`.
-/

namespace DebugMetadata.Text.Utf8

def encode (s : List Char) : List UInt8 :=
  s.flatMap String.utf8EncodeChar

/-- A character of which at least the first byte has been read. -/
structure Pending where
  /-- The bits of the code point read so far. -/
  bits : Nat
  /-- The least value of the next byte. -/
  lo : Nat
  /-- The greatest value of the next byte. -/
  hi : Nat
  /-- How many bytes are owed after the next one. -/
  owed : Nat
  deriving DecidableEq, Repr

/-- What a byte means between two characters. -/
inductive Lead where
  | single (c : Char)
  | opening (p : Pending)
  | stray
  deriving DecidableEq, Repr

/-- Reads a byte as the start of a character.  The range of the byte after it
leaves out over-long forms, surrogates and code points above U+10FFFF. -/
def lead (b : UInt8) : Lead :=
  let n := b.toNat
  if n < 0x80 then .single (Char.ofNat n)
  else if n < 0xC2 then .stray
  else if n < 0xE0 then .opening ⟨n - 0xC0, 0x80, 0xBF, 0⟩
  else if n = 0xE0 then .opening ⟨0, 0xA0, 0xBF, 1⟩
  else if n = 0xED then .opening ⟨0xD, 0x80, 0x9F, 1⟩
  else if n < 0xF0 then .opening ⟨n - 0xE0, 0x80, 0xBF, 1⟩
  else if n = 0xF0 then .opening ⟨0, 0x90, 0xBF, 2⟩
  else if n < 0xF4 then .opening ⟨n - 0xF0, 0x80, 0xBF, 2⟩
  else if n = 0xF4 then .opening ⟨4, 0x80, 0x8F, 2⟩
  else .stray

/-- The state between two bytes: idle, or inside a character. -/
abbrev State := Option Pending

def start (b : UInt8) : List (Option Char) × State :=
  match lead b with
  | .single c => ([some c], none)
  | .opening p => ([], some p)
  | .stray => ([none], none)

/-- Takes a byte.  One that cannot continue the open character closes it as
ill-formed and is taken again as the start of the next. -/
def step : State → UInt8 → List (Option Char) × State
  | none, b => start b
  | some p, b =>
    if p.lo ≤ b.toNat ∧ b.toNat ≤ p.hi then
      let bits := p.bits * 64 + b.toNat % 64
      match p.owed with
      | 0 => ([some (Char.ofNat bits)], none)
      | owed + 1 => ([], some ⟨bits, 0x80, 0xBF, owed⟩)
    else
      let (out, next) := start b
      (none :: out, next)

/-- What the machine yields from a state to the end of the bytes.  A character
still open at the end is ill-formed. -/
def readFrom : State → List UInt8 → List (Option Char)
  | none, [] => []
  | some _, [] => [none]
  | state, b :: rest => (step state b).1 ++ readFrom (step state b).2 rest

/-- The characters and ill-formed pieces of a sequence of bytes, in order. -/
def read (bytes : List UInt8) : List (Option Char) :=
  readFrom none bytes

/-- Lenient reading: each ill-formed piece becomes one U+FFFD. -/
def decode (bytes : List UInt8) : List Char :=
  (read bytes).map (·.getD '\uFFFD')

/-- Strict reading: fails on bytes with an ill-formed piece. -/
def decode? (bytes : List UInt8) : Option (List Char) :=
  (read bytes).mapM id

def ofString (s : String) : List UInt8 := encode s.toList

/-- Lenient reading into a string. -/
def text (bytes : List UInt8) : String := String.ofList (decode bytes)

/-- Strict reading into a string. -/
def text? (bytes : List UInt8) : Option String :=
  (decode? bytes).map String.ofList

@[simp] theorem encode_nil : encode [] = [] := rfl

@[simp] theorem encode_cons (c : Char) (s : List Char) :
    encode (c :: s) = String.utf8EncodeChar c ++ encode s := rfl

@[simp] theorem encode_append (s t : List Char) :
    encode (s ++ t) = encode s ++ encode t := List.flatMap_append

end DebugMetadata.Text.Utf8

import DebugMetadata.Text.Utf8

/-!
# Quoted literals

The inside of a quoted literal in assembly text.  A literal stands for bytes: a
printable ASCII byte other than the quote and the backslash stands for itself,
every other byte is written as a backslash and two upper-case hexadecimal
digits.
-/

namespace DebugMetadata.Text.Quoted

def isPlain (b : UInt8) : Bool :=
  0x20 ≤ b && b ≤ 0x7E && b != 0x22 && b != 0x5C

/-- The upper-case hexadecimal digit with the value `n`, for `n < 16`. -/
def hexDigit (n : Nat) : Char :=
  if n < 10 then Char.ofNat (0x30 + n) else Char.ofNat (0x37 + n)

def hexValue? (c : Char) : Option Nat :=
  if '0' ≤ c ∧ c ≤ '9' then some (c.toNat - 0x30)
  else if 'A' ≤ c ∧ c ≤ 'F' then some (c.toNat - 0x37)
  else none

def encodeByte (b : UInt8) : List Char :=
  if isPlain b then [Char.ofNat b.toNat]
  else ['\\', hexDigit (b.toNat / 16), hexDigit (b.toNat % 16)]

def encode (bytes : List UInt8) : List Char :=
  bytes.flatMap encodeByte

/-- The bytes a literal stands for.  Fails where a backslash is not followed by
two upper-case hexadecimal digits. -/
def decode? : List Char → Option (List UInt8)
  | [] => some []
  | '\\' :: h :: l :: rest => do
    let high ← hexValue? h
    let low ← hexValue? l
    let bytes ← decode? rest
    pure (UInt8.ofNat (16 * high + low) :: bytes)
  | c :: rest =>
    if c = '\\' then none
    else (decode? rest).map (UInt8.ofNat c.toNat :: ·)

/-- The written form of a text, by its UTF-8 bytes. -/
def escape (s : String) : String :=
  String.ofList (encode (Utf8.ofString s))

def literal (s : String) : String :=
  "\"" ++ escape s ++ "\""

@[simp] theorem encode_nil : encode [] = [] := rfl

@[simp] theorem encode_cons (b : UInt8) (bytes : List UInt8) :
    encode (b :: bytes) = encodeByte b ++ encode bytes := rfl

@[simp] theorem encode_append (a b : List UInt8) :
    encode (a ++ b) = encode a ++ encode b := List.flatMap_append

end DebugMetadata.Text.Quoted

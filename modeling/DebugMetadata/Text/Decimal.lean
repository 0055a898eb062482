/-!
# Decimal numbers

Integers are written in decimal without leading zeros, a negative one with a
minus sign in front.
-/

namespace DebugMetadata.Text

def decimal : Int → String
  | .ofNat n => n.repr
  | .negSucc n => "-" ++ (n + 1).repr

@[simp] theorem decimal_natCast (n : Nat) : decimal n = n.repr := rfl

end DebugMetadata.Text

/-!
# Types

The types of values and the signatures of functions, with their written forms.
-/

namespace DebugMetadata

/-- The type of a value. -/
inductive Ty where
  | void
  | i1
  | i8
  | i32
  | i64
  | double
  | ptr
  deriving DecidableEq, Repr

def Ty.text : Ty → String
  | .void => "void"
  | .i1 => "i1"
  | .i8 => "i8"
  | .i32 => "i32"
  | .i64 => "i64"
  | .double => "double"
  | .ptr => "ptr"

/-- The types of a function's result and parameters. -/
structure Signature where
  result : Ty
  params : List Ty
  deriving DecidableEq, Repr

namespace Signature

def unit : Signature := ⟨.void, []⟩

def paramsText (s : Signature) : String :=
  "(" ++ ", ".intercalate (s.params.map Ty.text) ++ ")"

def text (s : Signature) : String := s.result.text ++ " " ++ s.paramsText

end Signature

end DebugMetadata

/-!
# Faults

Why a call can fail.  A fault is the cause; its wording is in one place,
`Fault.message`.
-/

namespace DebugMetadata

/-- Why a path names no source file. -/
inductive PathFault where
  | empty
  | noFileName
  deriving DecidableEq, Repr

def PathFault.reason : PathFault → String
  | .empty => "path is empty"
  | .noFileName => "path has no file name"

/-- Why a call failed. -/
inductive Fault where
  /-- The path, shown as text, names no source file. -/
  | invalidSourcePath (path : String) (cause : PathFault)
  | unknownLevel (text : String)
  | unknownSchema (text : String)
  | duplicateFunction (name : String)
  /-- A location was asked for before any subprogram was registered. -/
  | noSubprogram
  | dangling
  | unknownCursor (number : Nat)
  | unknownRecorder (number : Nat)
  | notOffered (number : Nat)
  deriving DecidableEq, Repr

/-- The message that reports a fault.  Texts are shown as they were given. -/
def Fault.message : Fault → String
  | .invalidSourcePath path cause =>
    "invalid source path '" ++ path ++ "': " ++ cause.reason
  | .unknownLevel text =>
    "unknown debug info level '" ++ text ++ "' (expected none or full)"
  | .unknownSchema text =>
    "unknown metadata schema '" ++ text ++ "' (expected modern or legacy)"
  | .duplicateFunction name =>
    "function '" ++ name ++ "' is already defined in this module"
  | .noSubprogram => "mark_location called before any mark_subprogram"
  | .dangling => "handle out of range"
  | .unknownCursor number => "no cursor has the number " ++ toString number
  | .unknownRecorder number => "no recorder has the number " ++ toString number
  | .notOffered number =>
    "recorder " ++ toString number ++ " does not offer this call"

end DebugMetadata

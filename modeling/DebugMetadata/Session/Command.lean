import DebugMetadata.Graph.Edit
import DebugMetadata.Recorder.Basic

/-!
# Commands

The calls that change a session, as values.  Cursors and recorders are referred
to by their numbers.
-/

namespace DebugMetadata

/-- How the form of a new recorder is chosen. -/
inductive RecorderChoice where
  /-- As the settings say: by their schema, or off if their level is. -/
  | bySettings
  | off
  | fixed (schema : Schema)
  deriving DecidableEq, Repr

/-- The schema of a recorder that is so chosen, or none if it is off. -/
def RecorderChoice.schema (settings : Settings) : RecorderChoice → Option Schema
  | .bySettings => settings.activeSchema
  | .off => none
  | .fixed schema => some schema

/-- What a cursor is told. -/
inductive CursorCommand where
  | moveTo (block : BlockId)
  /-- Set or unset the location of what is emitted next. -/
  | locate (location : Option NodeId)
  | emit (operation : Operation)
  deriving DecidableEq, Repr

/-- What a recorder is told. -/
inductive RecorderCommand where
  | clone
  | markSubprogram (function : FunctionId) (name : String) (line : Nat)
  | markLocation (cursor : Nat) (line : Nat)
  | finalize
  | addSubprogram (name linkageName : String) (line : Nat)
  | addLocation (line : Nat)
  deriving DecidableEq, Repr

/-- A call that changes a session. -/
inductive Command where
  | setSourceFilename (filename : String)
  | addFunction (name : String) (signature : Signature)
  | appendBlock (function : FunctionId) (label : String)
  | edit (edit : Graph.Edit)
  | attachToFunction (function : FunctionId) (key : String) (node : NodeId)
  | attachToInstruction (instr : InstrId) (key : String) (node : NodeId)
  | addFlag (flag : ModuleFlag)
  | openCursor (block : BlockId)
  | cursor (number : Nat) (command : CursorCommand)
  /-- Make a recorder for the source file that a path names. -/
  | createRecorder (choice : RecorderChoice) (settings : Settings) (path : List UInt8)
  | recorder (number : Nat) (command : RecorderCommand)
  deriving DecidableEq, Repr

end DebugMetadata

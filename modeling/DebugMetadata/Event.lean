import DebugMetadata.Settings.Basic
import DebugMetadata.Source.File

/-!
# Events

What recorders report about their work.  An event is reported by its verbosity,
its message and its fields.
-/

namespace DebugMetadata

/-- How much detail must be asked for to see an event. -/
inductive Verbosity where
  | debug
  | trace
  deriving DecidableEq, Repr

def Verbosity.name : Verbosity → String
  | .debug => "DEBUG"
  | .trace => "TRACE"

/-- The value of an event's field. -/
inductive EventValue where
  | text (text : String)
  | number (number : Nat)
  deriving DecidableEq, Repr

/-- A step of a recorder's work. -/
inductive Event where
  | created (schema : Schema) (source : SourceFile)
  | markedSubprogram (name linkageName : String) (line : Nat)
  | markedLocation (line : Nat)
  /-- A location was passed over because it repeats the line before it. -/
  | skippedLine (line : Nat)
  /-- A recorder with so many subprograms committed its compile unit. -/
  | finalized (schema : Schema) (subprograms : Nat)
  deriving DecidableEq, Repr

namespace Event

/-- Events about single lines are more detail than the others. -/
def verbosity : Event → Verbosity
  | .created .. | .markedSubprogram .. | .finalized .. => .debug
  | .markedLocation _ | .skippedLine _ => .trace

def message : Event → String
  | .created schema _ => "created " ++ schema.name ++ " debug info builder"
  | .markedSubprogram .. => "mark subprogram"
  | .markedLocation _ => "mark location"
  | .skippedLine _ => "skip repeated line"
  | .finalized schema _ => "finalized " ++ schema.name ++ " debug info"

def fields : Event → List (String × EventValue)
  | .created _ source =>
    [("directory", .text source.directory), ("filename", .text source.filename)]
  | .markedSubprogram name linkageName line =>
    [("name", .text name), ("linkage_name", .text linkageName), ("line", .number line)]
  | .markedLocation line | .skippedLine line => [("line", .number line)]
  | .finalized _ subprograms => [("subprograms", .number subprograms)]

end Event

end DebugMetadata

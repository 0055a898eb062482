import DebugMetadata.Recorder.Tagged
import DebugMetadata.Recorder.Typed

/-!
# Recorders

A recorder is told of functions and lines while code is emitted, and records
them in the module's metadata.  Which form it takes is settled when it is
created; one that is off changes nothing.
-/

namespace DebugMetadata

/-- A recorder of debug info. -/
inductive Recorder where
  | off
  | typed (recorder : TypedRecorder)
  | tagged (recorder : TaggedRecorder)
  deriving DecidableEq, Repr

namespace Recorder

/-- Creates a recorder of a schema for the source file that a path names.
Without a schema the recorder is off, and the path is not looked at.  If the path
names no file nothing is created. -/
def create (schema : Option Schema) (settings : Settings)
    (workingDirectory path : List UInt8) (m : Module) :
    Except Fault (Recorder × Module × Option Event) :=
  match schema with
  | none => .ok (.off, m, none)
  | some schema => do
    let source ← SourceFile.ofPath workingDirectory path
    let (recorder, graph) :=
      match schema with
      | .modern =>
        let (r, g) := TypedRecorder.create settings source m.graph
        (Recorder.typed r, g)
      | .legacy =>
        let (r, g) := TaggedRecorder.create settings source m.graph
        (Recorder.tagged r, g)
    return (recorder, { m with graph }, some (.created schema source))

/-- Registers a function as a subprogram with a display name and a line.  A
recorder that is on fails if the function does not exist. -/
def markSubprogram (r : Recorder) (m : Module) (function : FunctionId) (name : String)
    (line : Nat) : Except Fault (Recorder × Module × Option Event) :=
  match r with
  | .off => .ok (r, m, none)
  | .typed t => do
    let (t, m, event) ← t.markSubprogram m function name line
    return (.typed t, m, some event)
  | .tagged t => do
    let (t, m, event) ← t.markSubprogram m function name line
    return (.tagged t, m, some event)

/-- Records that what a cursor emits next comes from a line.  A recorder that is
on fails if it has registered no subprogram. -/
def markLocation (r : Recorder) (m : Module) (c : Cursor) (line : Nat) :
    Except Fault (Recorder × Cursor × Module × Option Event) :=
  match r with
  | .off => .ok (r, c, m, none)
  | .typed t => do
    let (c, m, event) ← t.markLocation m c line
    return (r, c, m, some event)
  | .tagged t => do
    let (t, m, event) ← t.markLocation m c line
    return (.tagged t, c, m, some event)

/-- Commits the compile unit and the flags of the recorder's schema. -/
def finalize (r : Recorder) (m : Module) : Module × Option Event :=
  match r with
  | .off => (m, none)
  | .typed t =>
    let (m, event) := t.finalize m
    (m, some event)
  | .tagged t =>
    let (m, event) := t.finalize m
    (m, some event)

/-- Adds a subprogram without attaching it to a function.  A recorder that is off
adds none. -/
def addSubprogram? (r : Recorder) (name linkageName : String) (line : Nat) (m : Module) :
    Option (NodeId × Recorder × Module) :=
  match r with
  | .off => none
  | .typed t =>
    let (id, t, graph) := t.addSubprogram name linkageName line m.graph
    some (id, .typed t, { m with graph })
  | .tagged t =>
    let (id, t, m) := t.addSubprogram name linkageName line m
    some (id, .tagged t, m)

/-- Adds the location of a line without giving it to an instruction.  A recorder
that is off adds none. -/
def addLocation? (r : Recorder) (line : Nat) (m : Module) :
    Option (Except Fault (NodeId × Module)) :=
  let within := Except.map fun (id, graph) => (id, { m with graph })
  match r with
  | .off => none
  | .typed t => some (within (t.addLocation line m.graph))
  | .tagged t => some (within (t.addLocation line m.graph))

end Recorder

end DebugMetadata

import DebugMetadata.Session.Command

/-!
# Sessions

A session is a module with the cursors and recorders at work on it and the log
of events they have reported.  A command that succeeds gives an answer and the
session after it; a command that fails gives its fault and leaves the session as
it was.
-/

namespace DebugMetadata

/-- A recorder and how it was chosen. -/
structure RecorderSlot where
  choice : RecorderChoice
  recorder : Recorder
  deriving DecidableEq, Repr

/-- Whether the recorder is known to be of a schema that was asked for.  Only then
it offers more than marking and finalizing. -/
def RecorderSlot.isExposed (slot : RecorderSlot) : Bool :=
  slot.choice != .bySettings

/-- A module and what works on it. -/
structure Session where
  /-- The directory that relative source paths are taken from. -/
  workingDirectory : List UInt8
  module : Module
  cursors : Array Cursor := #[]
  recorders : Array RecorderSlot := #[]
  /-- The events since the log was last taken. -/
  log : Array Event := #[]

namespace Session

def start (workingDirectory : List UInt8) (name : String) : Session :=
  { workingDirectory, module := { name } }

def cursor (s : Session) (number : Nat) : Except Fault Cursor :=
  match s.cursors[number]? with
  | none => .error (.unknownCursor number)
  | some cursor => .ok cursor

def slot (s : Session) (number : Nat) : Except Fault RecorderSlot :=
  match s.recorders[number]? with
  | none => .error (.unknownRecorder number)
  | some slot => .ok slot

def setCursor (s : Session) (number : Nat) (cursor : Cursor) : Session :=
  { s with cursors := s.cursors.modify number fun _ => cursor }

def setRecorder (s : Session) (number : Nat) (recorder : Recorder) : Session :=
  { s with recorders := s.recorders.modify number ({ · with recorder }) }

def pushRecorder (s : Session) (slot : RecorderSlot) : Answer × Session :=
  (.recorder s.recorders.size, { s with recorders := s.recorders.push slot })

/-- Appends an event to the log, if there is one. -/
def report (s : Session) (event : Option Event) : Session :=
  { s with log := s.log ++ event.toArray }

def takeLog (s : Session) : Array Event × Session :=
  (s.log, { s with log := #[] })

/-- What was looked up, or the fault that it does not exist. -/
def found {α : Type} (x : Option α) : Except Fault α :=
  match x with
  | none => .error .dangling
  | some a => .ok a

def performCursor (s : Session) (number : Nat) (command : CursorCommand) :
    Except Fault (Answer × Session) := do
  let cursor ← s.cursor number
  match command with
  | .moveTo block => return (.done, s.setCursor number (cursor.moveTo block))
  | .locate location => return (.done, s.setCursor number (cursor.locate location))
  | .emit operation =>
    let (id, module) ← found (s.module.emit? cursor operation)
    return (.instr id, { s with module })

def performRecorder (s : Session) (number : Nat) (command : RecorderCommand) :
    Except Fault (Answer × Session) := do
  let slot ← s.slot number
  match command with
  | .clone =>
    if slot.isExposed then return s.pushRecorder slot
    else throw (.notOffered number)
  | .markSubprogram function name line =>
    let (recorder, module, event) ←
      slot.recorder.markSubprogram s.module function name line
    return (.done, ({ s with module }.setRecorder number recorder).report event)
  | .markLocation c line =>
    let cursor ← s.cursor c
    let (recorder, cursor, module, event) ←
      slot.recorder.markLocation s.module cursor line
    return (.location cursor.location,
      (({ s with module }.setRecorder number recorder).setCursor c cursor).report event)
  | .finalize =>
    let (module, event) := slot.recorder.finalize s.module
    return (.done, { s with module }.report event)
  | .addSubprogram name linkageName line =>
    match slot.isExposed, slot.recorder.addSubprogram? name linkageName line s.module with
    | true, some (id, recorder, module) =>
      return (.node id, { s with module }.setRecorder number recorder)
    | _, _ => throw (.notOffered number)
  | .addLocation line =>
    match slot.isExposed, slot.recorder.addLocation? line s.module with
    | true, some result =>
      let (id, module) ← result
      return (.node id, { s with module })
    | _, _ => throw (.notOffered number)

def perform (s : Session) : Command → Except Fault (Answer × Session)
  | .setSourceFilename filename =>
    .ok (.done, { s with module := { s.module with sourceFilename := some filename } })
  | .addFunction name signature => do
    let (id, module) ← s.module.addFunction name signature
    return (.function id, { s with module })
  | .appendBlock function label => do
    let (id, module) ← found (s.module.appendBlock? function label)
    return (.block id, { s with module })
  | .edit edit => do
    let (answer, graph) ← s.module.graph.perform edit
    return (answer, { s with module := { s.module with graph } })
  | .attachToFunction function key node => do
    let _ ← found (s.module.function? function)
    return (.done, { s with module := s.module.attachToFunction function key node })
  | .attachToInstruction instr key node => do
    let _ ← found (s.module.instruction? instr)
    return (.done, { s with module := s.module.attachToInstruction instr key node })
  | .addFlag flag =>
    let (added, graph) := s.module.graph.addFlag flag
    .ok (.added added, { s with module := { s.module with graph } })
  | .openCursor block =>
    .ok (.cursor s.cursors.size, { s with cursors := s.cursors.push { block } })
  | .cursor number command => s.performCursor number command
  | .createRecorder choice settings path => do
    let (recorder, module, event) ←
      Recorder.create (choice.schema settings) settings s.workingDirectory path s.module
    let (answer, s) := { s with module }.pushRecorder ⟨choice, recorder⟩
    return (answer, s.report event)
  | .recorder number command => s.performRecorder number command

/-- Performs commands one after another.  One that fails changes nothing and the
rest are still performed, unless it met a dangling handle, which ends the run. -/
def run (s : Session) : List Command → List (Except Fault Answer) × Session
  | [] => ([], s)
  | command :: rest =>
    match s.perform command with
    | .ok (answer, s) =>
      let (answers, s) := s.run rest
      (.ok answer :: answers, s)
    | .error .dangling => ([.error .dangling], s)
    | .error fault =>
      let (answers, s) := s.run rest
      (.error fault :: answers, s)

end Session

end DebugMetadata

import DebugMetadata.Proofs.Code.Renaming
import DebugMetadata.Session.Basic

/-!
# Scripts

A script is what a driver does to a new module with one recorder: it declares
functions, appends blocks, moves cursors, emits instructions and tells the
recorder of subprograms and lines.  It names the result of an instruction by the
instruction's position among those that the script itself has emitted, so one
script can be run beside every recorder, whatever the recorder emits in between.

What a script may do next depends only on what it has done so far.  An outline
keeps what matters of that.
-/

namespace DebugMetadata.Script

/-- A call of a driver.  The operation of an instruction takes positions for
handles. -/
inductive Step where
  | addFunction (name : String) (signature : Signature)
  | appendBlock (function : FunctionId) (label : String)
  | openCursor (block : BlockId)
  | moveTo (cursor : Nat) (block : BlockId)
  | emit (cursor : Nat) (operation : Operation)
  | markSubprogram (function : FunctionId) (name : String) (line : Nat)
  | markLocation (cursor : Nat) (line : Nat)
  | finalize
  deriving DecidableEq, Repr

/-- Whether a step builds code and does not call the recorder. -/
def Step.isCode : Step → Bool
  | .markSubprogram _ _ _ | .markLocation _ _ | .finalize => false
  | _ => true

/-! ## Outlines -/

/-- What a script has built so far. -/
structure Outline where
  /-- The names of the functions in the order of their declaration. -/
  names : List String := []
  /-- The function of each block. -/
  owners : List FunctionId := []
  /-- The block of each cursor. -/
  cursors : List BlockId := []
  /-- How many instructions it has emitted. -/
  emitted : Nat := 0
  /-- Whether it has registered a subprogram. -/
  marked : Bool := false
  deriving DecidableEq, Repr

namespace Outline

/-- The function that a cursor emits into, if it stands in a block that exists. -/
def place? (o : Outline) (cursor : Nat) : Option FunctionId := do
  let block ← o.cursors[cursor]?
  o.owners[block.index]?

/-- The outline after a step, if the step may be taken: what it refers to must
exist, and a line may be marked only after a subprogram. -/
def after? (o : Outline) : Step → Option Outline
  | .addFunction name _ =>
    some (if name ∈ o.names then o else { o with names := o.names ++ [name] })
  | .appendBlock function _ =>
    if function.index < o.names.length then
      some { o with owners := o.owners ++ [function] }
    else none
  | .openCursor block => some { o with cursors := o.cursors ++ [block] }
  | .moveTo cursor block =>
    if cursor < o.cursors.length then
      some { o with cursors := o.cursors.set cursor block }
    else none
  | .emit cursor operation =>
    if (o.place? cursor).isSome ∧ ∀ position ∈ operation.uses, position.index < o.emitted then
      some { o with emitted := o.emitted + 1 }
    else none
  | .markSubprogram function _ _ =>
    if function.index < o.names.length then some { o with marked := true } else none
  | .markLocation cursor _ =>
    if o.marked ∧ (o.place? cursor).isSome then some o else none
  | .finalize => some o

end Outline

/-- The outline of a script whose steps may all be taken. -/
def outline? (script : List Step) : Option Outline := script.foldlM Outline.after? {}

def WellFormed (script : List Step) : Prop := (outline? script).isSome

instance (script : List Step) : Decidable (WellFormed script) :=
  inferInstanceAs (Decidable ((outline? script).isSome = true))

/-- A function on one line, and one that begins on the same line, calls the other
there and returns on the next line. -/
def sample : List Step :=
  [.addFunction "helper" ⟨.i32, []⟩, .addFunction "main" ⟨.i32, []⟩,
    .appendBlock ⟨0⟩ "entry", .appendBlock ⟨1⟩ "entry", .openCursor ⟨0⟩, .openCursor ⟨1⟩,
    .markSubprogram ⟨0⟩ "helper" 2, .markLocation 0 2, .emit 0 (.ret (some (.const .i32 0))),
    .markSubprogram ⟨1⟩ "main" 2, .markLocation 1 2, .emit 1 (.call (.function ⟨0⟩) []),
    .markLocation 1 3, .emit 1 (.ret (some (.result ⟨1⟩))), .finalize]

/-! ## Running -/

/-- A session driven by a script, with the instructions that the script emitted. -/
structure Drive where
  session : Session
  emitted : Array InstrId := #[]

namespace Drive

def module (d : Drive) : Module := d.session.module

def handle (d : Drive) (position : InstrId) : InstrId :=
  d.emitted.getD position.index position

def command (d : Drive) : Step → Command
  | .addFunction name signature => .addFunction name signature
  | .appendBlock function label => .appendBlock function label
  | .openCursor block => .openCursor block
  | .moveTo cursor block => .cursor cursor (.moveTo block)
  | .emit cursor operation => .cursor cursor (.emit (operation.rename d.handle))
  | .markSubprogram function name line => .recorder 0 (.markSubprogram function name line)
  | .markLocation cursor line => .recorder 0 (.markLocation cursor line)
  | .finalize => .recorder 0 .finalize

/-- Takes a step.  The driver goes on after a name that is taken, and keeps what
it is told of the instructions it emits. -/
def step (d : Drive) (s : Step) : Except Fault Drive :=
  match d.session.perform (d.command s) with
  | .ok (.instr id, session) => .ok { session, emitted := d.emitted.push id }
  | .ok (_, session) => .ok { d with session }
  | .error (.duplicateFunction _) => .ok d
  | .error fault => .error fault

def run (d : Drive) (script : List Step) : Except Fault Drive := script.foldlM step d

def start (choice : RecorderChoice) (settings : Settings) (workingDirectory path : List UInt8)
    (name : String) : Except Fault Drive := do
  let (_, session) ←
    (Session.start workingDirectory name).perform (.createRecorder choice settings path)
  return { session }

end Drive

/-- Runs a script on a new module with a recorder. -/
def run (script : List Step) (choice : RecorderChoice) (settings : Settings)
    (workingDirectory path : List UInt8) (name : String) : Except Fault Drive := do
  let d ← Drive.start choice settings workingDirectory path name
  d.run script

end DebugMetadata.Script

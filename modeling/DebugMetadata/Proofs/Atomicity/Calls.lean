import DebugMetadata.Proofs.Recorder.Cases

/-!
# Calls that write as they go

A call gives its result with all that it changes, or a fault and nothing.  Here the calls that
can fail make their changes one after another, and what was written before a fault stays
written.  The two agree, because a call that fails has written nothing yet.  Only for a marker
in a block that does not exist this is found out too late.
-/

namespace DebugMetadata

/-- A call that makes its changes one after another.  What it has written stays written if it
fails. -/
abbrev Writing (σ α : Type) := ExceptT Fault (StateM σ) α

namespace Writing

variable {σ α β : Type} {w : Writing σ α} {s s' : σ}

/-- What the call comes to: its result or its fault, and what it has made of the state. -/
def on (w : Writing σ α) (s : σ) : Except Fault α × σ := w.run.run s

/-- What a call comes to that changes everything at once, or nothing if it fails. -/
def settle (s : σ) : Except Fault (α × σ) → Except Fault α × σ
  | .ok (a, s') => (.ok a, s')
  | .error fault => (.error fault, s)

theorem on_modify (f : σ → σ) (s : σ) : (modify f : Writing σ Unit).on s = (.ok (), f s) := rfl

theorem on_get (s : σ) : (get : Writing σ σ).on s = (.ok s, s) := rfl

theorem on_pure (a : α) (s : σ) : (pure a : Writing σ α).on s = (.ok a, s) := rfl

theorem on_bind_of_ok {a : α} (h : w.on s = (.ok a, s')) (f : α → Writing σ β) :
    (w >>= f).on s = (f a).on s' := by
  change w s = _ at h
  change (w >>= f) s = _
  simp only [bind, ExceptT.bind, ExceptT.mk, StateT.bind, h]
  rfl

/-- What follows a call that fails is not performed, and nothing is taken back. -/
theorem on_bind_of_error {fault : Fault} (h : w.on s = (.error fault, s'))
    (f : α → Writing σ β) : (w >>= f).on s = (.error fault, s') := by
  change w s = _ at h
  change (w >>= f) s = _
  simp only [bind, ExceptT.bind, ExceptT.mk, StateT.bind, h]
  rfl

end Writing

/-! ## Modules -/

namespace Module

/-- Declares a function.  A name that is taken is refused before anything is written. -/
def writeFunction (name : String) (signature : Signature) : Writing Module FunctionId := do
  if (← get).functionIndex.contains name then throw (.duplicateFunction name)
  let id : FunctionId := ⟨(← get).functions.size⟩
  modify fun m => { m with functions := m.functions.push { name, signature } }
  modify fun m => { m with functionIndex := m.functionIndex.insert name id }
  return id

def writeNode (node : Node) : Writing Module NodeId :=
  modifyGet fun m => ((m.graph.add node).1, { m with graph := (m.graph.add node).2 })

def writeList : Writing Module ListId :=
  modifyGet fun m => (m.graph.newList.1, { m with graph := m.graph.newList.2 })

/-- Emits at a cursor.  The instruction is written before its block is looked up. -/
def writeInstruction (c : Cursor) (operation : Operation) : Writing Module InstrId := do
  let id : InstrId := ⟨(← get).instructions.size⟩
  modify fun m => { m with
    instructions := m.instructions.push { operation, block := c.block, location := c.location } }
  if c.block.index < (← get).blocks.size then
    modify fun m => { m with
      blocks := m.blocks.modify c.block.index fun b => { b with instrs := b.instrs.push id } }
    return id
  else throw .dangling

theorem on_writeFunction (m : Module) (name : String) (signature : Signature) :
    (writeFunction name signature).on m = Writing.settle m (m.addFunction name signature) := by
  change (if m.functionIndex.contains name then _ else _ : Writing Module FunctionId).on m = _
  unfold addFunction
  split
  · rfl
  · rfl

theorem on_writeInstruction {m : Module} {c : Cursor} (operation : Operation)
    (hblock : c.block.index < m.blocks.size) :
    (writeInstruction c operation).on m =
      (.ok ⟨m.instructions.size⟩,
        m.pushInstruction { operation, block := c.block, location := c.location }) := by
  change (if c.block.index < m.blocks.size then _ else _ : Writing Module InstrId).on _ = _
  rw [if_pos hblock]
  rfl

end Module

/-! ## Creation -/

namespace TypedRecorder

/-- Creates a recorder.  The path is read before any node is written. -/
def write (settings : Settings) (workingDirectory path : List UInt8) :
    Writing Module TypedRecorder := do
  let source ← MonadExcept.ofExcept (SourceFile.ofPath workingDirectory path)
  let file ← Module.writeNode (.debug (fileNode source) false)
  let unit ← Module.writeNode (.debug (unitNode settings file) true)
  return { source, optimized := settings.optimized, file, unit }

variable {settings : Settings} {workingDirectory path : List UInt8}

theorem on_write_of_ok {source : SourceFile}
    (h : SourceFile.ofPath workingDirectory path = .ok source) (m : Module) :
    (write settings workingDirectory path).on m =
      (.ok (create settings source m.graph).1,
        { m with graph := (create settings source m.graph).2 }) := by
  simp only [write, h, create, Graph.addDebug_eq_add]
  rfl

theorem on_write_of_error {fault : Fault}
    (h : SourceFile.ofPath workingDirectory path = .error fault) (m : Module) :
    (write settings workingDirectory path).on m = (.error fault, m) := by
  simp only [write, h]
  rfl

end TypedRecorder

namespace TaggedRecorder

/-- Creates a recorder.  The path is read before any node or list is written. -/
def write (settings : Settings) (workingDirectory path : List UInt8) :
    Writing Module TaggedRecorder := do
  let source ← MonadExcept.ofExcept (SourceFile.ofPath workingDirectory path)
  let pair ← Module.writeNode (.tuple (pairOperands source))
  let file ← Module.writeNode (.tuple (fileOperands pair))
  let subprograms ← Module.writeList
  let pair ← Module.writeNode (.tuple (pairOperands source))
  let empty ← Module.writeNode (.tuple emptyOperands)
  let unit ← Module.writeNode (.tuple (unitOperands settings pair empty subprograms))
  return { source, optimized := settings.optimized, file, unit, subprograms }

variable {settings : Settings} {workingDirectory path : List UInt8}

theorem on_write_of_ok {source : SourceFile}
    (h : SourceFile.ofPath workingDirectory path = .ok source) (m : Module) :
    (write settings workingDirectory path).on m =
      (.ok (create settings source m.graph).1,
        { m with graph := (create settings source m.graph).2 }) := by
  simp only [write, h, create, addFile, addPair, Graph.addTuple_eq_add]
  rfl

theorem on_write_of_error {fault : Fault}
    (h : SourceFile.ofPath workingDirectory path = .error fault) (m : Module) :
    (write settings workingDirectory path).on m = (.error fault, m) := by
  simp only [write, h]
  rfl

end TaggedRecorder

namespace Recorder

/-- Creates a recorder of a schema and reports it. -/
def write (schema : Option Schema) (settings : Settings) (workingDirectory path : List UInt8) :
    Writing Module (Recorder × Option Event) :=
  match schema with
  | none => return (.off, none)
  | some .modern => do
    let t ← TypedRecorder.write settings workingDirectory path
    return (.typed t, some (.created .modern t.source))
  | some .legacy => do
    let t ← TaggedRecorder.write settings workingDirectory path
    return (.tagged t, some (.created .legacy t.source))

theorem on_write (m : Module) (schema : Option Schema) (settings : Settings)
    (workingDirectory path : List UInt8) :
    (write schema settings workingDirectory path).on m =
      Writing.settle m ((create schema settings workingDirectory path m).map
        fun (r, m', event) => ((r, event), m')) := by
  cases schema with
  | none => rfl
  | some schema =>
      cases hsource : SourceFile.ofPath workingDirectory path with
      | error fault =>
          simp only [create, hsource]
          cases schema with
          | modern => exact Writing.on_bind_of_error (TypedRecorder.on_write_of_error hsource m) _
          | legacy => exact Writing.on_bind_of_error (TaggedRecorder.on_write_of_error hsource m) _
      | ok source =>
          simp only [create, hsource, bind, Except.bind, pure, Except.pure, Except.map]
          cases schema with
          | modern =>
              refine (Writing.on_bind_of_ok (TypedRecorder.on_write_of_ok hsource m) _).trans ?_
              rw [TypedRecorder.source_create]
              generalize TypedRecorder.create settings source m.graph = created
              rfl
          | legacy =>
              refine (Writing.on_bind_of_ok (TaggedRecorder.on_write_of_ok hsource m) _).trans ?_
              rw [TaggedRecorder.source_create]
              generalize TaggedRecorder.create settings source m.graph = created
              rfl

end Recorder

/-! ## Locations -/

/-- What a recorder works on when it is told a line. -/
structure Bench where
  recorder : Recorder
  module : Module
  cursor : Cursor

namespace Bench

variable {α : Type}

/-- A call that writes to the module alone. -/
def onModule (w : Writing Module α) : Writing Bench α :=
  ExceptT.mk (fun b => ((w.on b.module).1, { b with module := (w.on b.module).2 }) :
    StateM Bench (Except Fault α))

theorem on_onModule {w : Writing Module α} {b : Bench} {result : Except Fault α} {m : Module}
    (h : w.on b.module = (result, m)) :
    (onModule w).on b = (result, { b with module := m }) := by
  change ((w.on b.module).1, { b with module := (w.on b.module).2 }) = _
  rw [h]

end Bench

/-- The subprogram that a new location belongs to. -/
def activeOrThrow (active : Option NodeId) : Writing Module NodeId :=
  match active with
  | some scope => return scope
  | none => throw .noSubprogram

namespace TypedRecorder

/-- Adds the location of a line.  Its subprogram is looked up before it is written. -/
def writeLocation (t : TypedRecorder) (line : Nat) : Writing Module NodeId := do
  let scope ← activeOrThrow t.active
  Module.writeNode (.debug (locationNode line scope) false)

/-- Gives the location of a line to what the cursor emits next. -/
def writeMark (t : TypedRecorder) (line : Nat) : Writing Bench Event := do
  let location ← Bench.onModule (t.writeLocation line)
  modify fun b => { b with cursor := b.cursor.locate (some location) }
  return .markedLocation line

end TypedRecorder

namespace TaggedRecorder

/-- Adds the location of a line.  Its subprogram is looked up before it is written. -/
def writeLocation (t : TaggedRecorder) (line : Nat) : Writing Module NodeId := do
  let scope ← activeOrThrow t.active
  Module.writeNode (.tuple (locationOperands line scope))

theorem on_writeLocation_of_some {t : TaggedRecorder} {scope : NodeId}
    (hactive : t.active = some scope) (line : Nat) (m : Module) :
    (t.writeLocation line).on m =
      (.ok (m.graph.addTuple (locationOperands line scope)).1,
        { m with graph := (m.graph.addTuple (locationOperands line scope)).2 }) := by
  rw [writeLocation, hactive]
  rfl

/-- Emits the marker of a line, unless the line repeats the last one. -/
def writeMark (t : TaggedRecorder) (line : Nat) : Writing Bench Event := do
  if t.lastLine = some line then return .skippedLine line
  let location ← Bench.onModule (t.writeLocation line)
  modify fun b => { b with recorder := .tagged { t with lastLine := some line } }
  let id ← Bench.onModule (Module.writeInstruction (← get).cursor (marker line))
  Bench.onModule (modify fun m => m.attachToInstruction id locationKey location)
  return .markedLocation line

variable {t : TaggedRecorder} {line : Nat} {scope : NodeId} {b : Bench}

theorem on_writeMark_of_repeated (hline : t.lastLine = some line) :
    (t.writeMark line).on b = (.ok (.skippedLine line), b) := by
  change (if t.lastLine = some line then _ else _ : Writing Bench Event).on b = _
  rw [if_pos hline]
  rfl

theorem on_writeMark_of_none (hline : t.lastLine ≠ some line) (hactive : t.active = none) :
    (t.writeMark line).on b = (.error .noSubprogram, b) := by
  change (if t.lastLine = some line then _ else _ : Writing Bench Event).on b = _
  rw [if_neg hline, writeLocation, hactive]
  rfl

theorem on_writeMark_of_new (hline : t.lastLine ≠ some line) (hactive : t.active = some scope)
    (hblock : b.cursor.block.index < b.module.blocks.size) :
    (t.writeMark line).on b =
      (.ok (.markedLocation line),
        ⟨.tagged { t with lastLine := some line },
          { b.module with graph :=
              (b.module.graph.addTuple (locationOperands line scope)).2 }.pushInstruction
            (markerAt b.cursor line
              (b.module.graph.addTuple (locationOperands line scope)).1),
          b.cursor⟩) := by
  change (if t.lastLine = some line then _ else _ : Writing Bench Event).on b = _
  generalize hadd : b.module.graph.addTuple (locationOperands line scope) = added
  have hlocation : (t.writeLocation line).on b.module =
      (.ok added.1, { b.module with graph := added.2 }) := by
    rw [← hadd]
    exact on_writeLocation_of_some hactive line b.module
  have hmarker := Module.on_writeInstruction (m := { b.module with graph := added.2 })
    (marker line) hblock
  have hattach := congrArg (fun m => ((.ok () : Except Fault Unit), m))
    (Module.attachToInstruction_pushInstruction { b.module with graph := added.2 }
      { operation := marker line, block := b.cursor.block, location := b.cursor.location }
      locationKey added.1)
  rw [if_neg hline]
  rw [Writing.on_bind_of_ok (Bench.on_onModule hlocation),
    Writing.on_bind_of_ok (Writing.on_modify _ _), Writing.on_bind_of_ok (Writing.on_get _),
    Writing.on_bind_of_ok (Bench.on_onModule hmarker),
    Writing.on_bind_of_ok (Bench.on_onModule hattach)]
  exact Writing.on_pure _ _

end TaggedRecorder

namespace Recorder

/-- Adds the location of a line, if the recorder is on. -/
def writeLocation? (r : Recorder) (line : Nat) : Option (Writing Module NodeId) :=
  match r with
  | .off => none
  | .typed t => some (t.writeLocation line)
  | .tagged t => some (t.writeLocation line)

/-- Records that what the cursor emits next comes from a line. -/
def writeMark (line : Nat) : Writing Bench (Option Event) := do
  match (← get).recorder with
  | .off => return none
  | .typed t => return some (← t.writeMark line)
  | .tagged t => return some (← t.writeMark line)

theorem on_writeLocation? (r : Recorder) (line : Nat) (m : Module) :
    (r.writeLocation? line).map (·.on m) = (r.addLocation? line m).map (Writing.settle m) := by
  cases r with
  | off => rfl
  | typed t =>
    cases hactive : t.active <;>
      simp only [writeLocation?, addLocation?, TypedRecorder.writeLocation,
        TypedRecorder.addLocation, hactive] <;> rfl
  | tagged t =>
    cases hactive : t.active <;>
      simp only [writeLocation?, addLocation?, TaggedRecorder.writeLocation,
        TaggedRecorder.addLocation, hactive] <;> rfl

private theorem on_writeMark_tagged {t : TaggedRecorder} {m : Module} {c : Cursor} {line : Nat}
    {result : Except Fault Event} {b : Bench}
    (h : (t.writeMark line).on ⟨.tagged t, m, c⟩ = (result, b)) :
    (writeMark line).on ⟨.tagged t, m, c⟩ = (result.map some, b) := by
  change (do return some (← t.writeMark line) : Writing Bench (Option Event)).on _ = _
  cases result with
  | error fault => exact Writing.on_bind_of_error h _
  | ok event => exact Writing.on_bind_of_ok h _

/-- The mark of a line in a block that exists fails before anything is written. -/
theorem on_writeMark {m : Module} {c : Cursor} (hblock : c.block.index < m.blocks.size)
    (r : Recorder) (line : Nat) :
    (writeMark line).on ⟨r, m, c⟩ =
      Writing.settle ⟨r, m, c⟩ ((r.markLocation m c line).map
        fun (r', c', m', event) => (event, ⟨r', m', c'⟩)) := by
  cases r with
  | off => rfl
  | typed t =>
      obtain ⟨source, optimized, file, unit, subprograms, active⟩ := t
      cases active <;> rfl
  | tagged t =>
      by_cases hline : t.lastLine = some line
      · rw [on_writeMark_tagged (TaggedRecorder.on_writeMark_of_repeated hline), markLocation,
          TaggedRecorder.markLocation_of_repeated hline]
        rfl
      · cases hactive : t.active with
        | none =>
            rw [on_writeMark_tagged (TaggedRecorder.on_writeMark_of_none hline hactive)]
            simp only [markLocation, TaggedRecorder.markLocation, if_neg hline,
              TaggedRecorder.addLocation, hactive]
            rfl
        | some scope =>
            rw [on_writeMark_tagged (TaggedRecorder.on_writeMark_of_new hline hactive hblock),
              markLocation, TaggedRecorder.markLocation_of_new hline hactive hblock]
            rfl

end Recorder

end DebugMetadata

import DebugMetadata.Proofs.Script.Basic

/-!
# What a script sees

Of the session that a script drives only the module, the cursors and the one
recorder decide what happens next.  A view keeps these, and its steps call the
operations of the module and of the recorder directly.  A drive takes every step
that its view takes, and shows the view of the result.
-/

namespace DebugMetadata.Script

private theorem bind_ok {ε α β : Type} (a : α) (f : α → Except ε β) :
    (Except.ok a >>= f) = f a := rfl

/-- What matters of a session that a script drives. -/
structure View where
  module : Module
  cursors : Array Cursor := #[]
  recorder : Recorder
  emitted : Array InstrId := #[]

namespace View

def handle (v : View) (position : InstrId) : InstrId :=
  v.emitted.getD position.index position

/-- Puts a cursor under a number that is taken. -/
def setCursor (v : View) (number : Nat) (cursor : Cursor) : View :=
  { v with cursors := v.cursors.modify number fun _ => cursor }

def step (v : View) : Step → Option View
  | .addFunction name signature =>
    match v.module.addFunction name signature with
    | .ok (_, module) => some { v with module }
    | .error _ => some v
  | .appendBlock function label =>
    match v.module.appendBlock? function label with
    | some (_, module) => some { v with module }
    | none => none
  | .openCursor block => some { v with cursors := v.cursors.push { block } }
  | .moveTo number block =>
    match v.cursors[number]? with
    | some cursor => some (v.setCursor number (cursor.moveTo block))
    | none => none
  | .emit number operation =>
    match v.cursors[number]? with
    | some cursor =>
      match v.module.emit? cursor (operation.rename v.handle) with
      | some (id, module) => some { v with module, emitted := v.emitted.push id }
      | none => none
    | none => none
  | .markSubprogram function name line =>
    match v.recorder.markSubprogram v.module function name line with
    | .ok (recorder, module, _) => some { v with recorder, module }
    | .error _ => none
  | .markLocation number line =>
    match v.cursors[number]? with
    | some cursor =>
      match v.recorder.markLocation v.module cursor line with
      | .ok (recorder, cursor, module, _) =>
        some ({ v with recorder, module }.setCursor number cursor)
      | .error _ => none
    | none => none
  | .finalize => some { v with module := (v.recorder.finalize v.module).1 }

def run (v : View) (script : List Step) : Option View := script.foldlM step v

theorem run_cons (v : View) (s : Step) (script : List Step) :
    v.run (s :: script) = (v.step s).bind fun v' => v'.run script := rfl

end View

namespace Drive

/-- The view is that of the session. -/
structure Shows (d : Drive) (v : View) : Prop where
  module : d.session.module = v.module
  cursors : d.session.cursors = v.cursors
  recorder : ∃ choice, d.session.recorders[0]? = some ⟨choice, v.recorder⟩
  emitted : d.emitted = v.emitted

namespace Shows

variable {d : Drive} {v v' : View}

theorem slot (h : d.Shows v) :
    ∃ choice, d.session.slot 0 = .ok ⟨choice, v.recorder⟩ := by
  obtain ⟨choice, hchoice⟩ := h.recorder
  exact ⟨choice, by rw [Session.slot, hchoice]⟩

theorem cursor (h : d.Shows v) {n : Nat} {c : Cursor} (hn : v.cursors[n]? = some c) :
    d.session.cursor n = .ok c := by
  rw [Session.cursor, h.cursors, hn]

theorem handle (h : d.Shows v) : d.handle = v.handle := by
  funext position
  rw [Drive.handle, View.handle, h.emitted]

theorem setRecorder (h : d.Shows v) (r : Recorder) (m : Module) (event : Option Event) :
    Shows { d with session := ({ d.session with module := m }.setRecorder 0 r).report event }
      { v with module := m, recorder := r } := by
  obtain ⟨choice, hchoice⟩ := h.recorder
  refine ⟨rfl, h.cursors, ⟨choice, ?_⟩, h.emitted⟩
  change (d.session.recorders.modify 0 _)[0]? = _
  rw [Array.getElem?_modify, if_pos rfl, hchoice]
  rfl

theorem setCursor (h : d.Shows v) (n : Nat) (c : Cursor) :
    Shows { d with session := d.session.setCursor n c } (v.setCursor n c) := by
  refine ⟨h.module, ?_, h.recorder, h.emitted⟩
  rw [Session.setCursor, View.setCursor, h.cursors]

/-! ## Steps -/

private theorem addFunction (h : d.Shows v) {name : String} {signature : Signature}
    (hstep : v.step (.addFunction name signature) = some v') :
    ∃ d', d.step (.addFunction name signature) = .ok d' ∧ d'.Shows v' := by
  simp only [View.step, Module.addFunction] at hstep
  by_cases htaken : v.module.functionIndex.contains name
  · rw [if_pos htaken] at hstep
    cases hstep
    refine ⟨d, ?_, h⟩
    simp only [Drive.step, command, Session.perform, h.module, Module.addFunction, if_pos htaken]
    rfl
  · rw [if_neg htaken] at hstep
    cases hstep
    refine ⟨{ d with session := { d.session with module := _ } }, ?_,
      rfl, h.cursors, h.recorder, h.emitted⟩
    simp only [Drive.step, command, Session.perform, h.module, Module.addFunction, if_neg htaken]
    rfl

private theorem appendBlock (h : d.Shows v) {function : FunctionId} {label : String}
    (hstep : v.step (.appendBlock function label) = some v') :
    ∃ d', d.step (.appendBlock function label) = .ok d' ∧ d'.Shows v' := by
  simp only [View.step] at hstep
  split at hstep
  next id m happend =>
    cases hstep
    refine ⟨{ d with session := { d.session with module := m } }, ?_,
      rfl, h.cursors, h.recorder, h.emitted⟩
    simp only [Drive.step, command, Session.perform, h.module, happend, Session.found, bind_ok]
    rfl
  next => cases hstep

private theorem openCursor (h : d.Shows v) {block : BlockId}
    (hstep : v.step (.openCursor block) = some v') :
    ∃ d', d.step (.openCursor block) = .ok d' ∧ d'.Shows v' := by
  cases hstep
  refine ⟨_, rfl, h.module, ?_, h.recorder, h.emitted⟩
  change d.session.cursors.push _ = _
  rw [h.cursors]

private theorem moveTo (h : d.Shows v) {n : Nat} {block : BlockId}
    (hstep : v.step (.moveTo n block) = some v') :
    ∃ d', d.step (.moveTo n block) = .ok d' ∧ d'.Shows v' := by
  simp only [View.step] at hstep
  split at hstep
  next c hn =>
    cases hstep
    refine ⟨{ d with session := d.session.setCursor n (c.moveTo block) }, ?_,
      h.setCursor n (c.moveTo block)⟩
    simp only [Drive.step, command, Session.perform, Session.performCursor, h.cursor hn, bind_ok]
    rfl
  next => cases hstep

private theorem emit (h : d.Shows v) {n : Nat} {operation : Operation}
    (hstep : v.step (.emit n operation) = some v') :
    ∃ d', d.step (.emit n operation) = .ok d' ∧ d'.Shows v' := by
  simp only [View.step] at hstep
  split at hstep
  next c hn =>
    split at hstep
    next id m hemit =>
      cases hstep
      refine ⟨⟨{ d.session with module := m }, d.emitted.push id⟩, ?_,
        rfl, h.cursors, h.recorder, ?_⟩
      · simp only [Drive.step, command, Session.perform, Session.performCursor, h.cursor hn,
          h.handle, h.module, hemit, Session.found, bind_ok]
        rfl
      · rw [h.emitted]
    next => cases hstep
  next => cases hstep

private theorem markSubprogram (h : d.Shows v) {function : FunctionId} {name : String}
    {line : Nat} (hstep : v.step (.markSubprogram function name line) = some v') :
    ∃ d', d.step (.markSubprogram function name line) = .ok d' ∧ d'.Shows v' := by
  obtain ⟨choice, hslot⟩ := h.slot
  simp only [View.step] at hstep
  split at hstep
  next r m event hmark =>
    cases hstep
    refine ⟨_, ?_, h.setRecorder r m event⟩
    simp only [Drive.step, command, Session.perform, Session.performRecorder, hslot, h.module,
      hmark, bind_ok]
    rfl
  next => cases hstep

private theorem markLocation (h : d.Shows v) {n line : Nat}
    (hstep : v.step (.markLocation n line) = some v') :
    ∃ d', d.step (.markLocation n line) = .ok d' ∧ d'.Shows v' := by
  obtain ⟨choice, hslot⟩ := h.slot
  simp only [View.step] at hstep
  split at hstep
  next c hn =>
    split at hstep
    next r c' m event hmark =>
      cases hstep
      refine ⟨_, ?_, (h.setRecorder r m event).setCursor n c'⟩
      simp only [Drive.step, command, Session.perform, Session.performRecorder, hslot,
        h.cursor hn, h.module, hmark, bind_ok]
      rfl
    next => cases hstep
  next => cases hstep

private theorem finalize (h : d.Shows v) (hstep : v.step .finalize = some v') :
    ∃ d', d.step .finalize = .ok d' ∧ d'.Shows v' := by
  obtain ⟨choice, hslot⟩ := h.slot
  cases hstep
  refine ⟨{ d with session := { d.session with
      module := (v.recorder.finalize v.module).1 }.report (v.recorder.finalize v.module).2 },
    ?_, rfl, h.cursors, h.recorder, h.emitted⟩
  simp only [Drive.step, command, Session.perform, Session.performRecorder, hslot, h.module,
    bind_ok]
  rfl

theorem step (h : d.Shows v) {s : Step} (hstep : v.step s = some v') :
    ∃ d', d.step s = .ok d' ∧ d'.Shows v' := by
  cases s with
  | addFunction name signature => exact h.addFunction hstep
  | appendBlock function label => exact h.appendBlock hstep
  | openCursor block => exact h.openCursor hstep
  | moveTo n block => exact h.moveTo hstep
  | emit n operation => exact h.emit hstep
  | markSubprogram function name line => exact h.markSubprogram hstep
  | markLocation n line => exact h.markLocation hstep
  | finalize => exact h.finalize hstep

theorem run {script : List Step} : ∀ {d : Drive} {v v' : View}, d.Shows v →
    v.run script = some v' → ∃ d', d.run script = .ok d' ∧ d'.Shows v' := by
  induction script with
  | nil =>
      intro d v v' h hrun
      cases hrun
      exact ⟨d, rfl, h⟩
  | cons s script ih =>
      intro d v v' h hrun
      rw [View.run_cons, Option.bind_eq_some_iff] at hrun
      obtain ⟨v₁, hstep, hrest⟩ := hrun
      obtain ⟨d₁, hd₁, h₁⟩ := h.step hstep
      obtain ⟨d₂, hd₂, h₂⟩ := ih h₁ hrest
      refine ⟨d₂, ?_, h₂⟩
      rw [Drive.run, List.foldlM_cons, hd₁]
      exact hd₂

end Shows

end Drive

/-! ## The first view -/

namespace View

/-- A new module with a recorder that is off. -/
def off (name : String) : View := { module := { name }, recorder := .off }

/-- A new module with a typed recorder for a source file. -/
def typed (settings : Settings) (source : SourceFile) (name : String) : View :=
  let created := TypedRecorder.create settings source ∅
  { module := { name, graph := created.2 }, recorder := .typed created.1 }

/-- A new module with a tagged recorder for a source file. -/
def tagged (settings : Settings) (source : SourceFile) (name : String) : View :=
  let created := TaggedRecorder.create settings source ∅
  { module := { name, graph := created.2 }, recorder := .tagged created.1 }

end View

variable {script : List Step} {settings : Settings} {workingDirectory path : List UInt8}
  {name : String} {source : SourceFile} {v : View}

theorem run_of_start {choice : RecorderChoice} {d : Drive} {v₀ : View}
    (hstart : Drive.start choice settings workingDirectory path name = .ok d)
    (hshows : d.Shows v₀) (hrun : v₀.run script = some v) :
    ∃ d', run script choice settings workingDirectory path name = .ok d' ∧ d'.Shows v := by
  obtain ⟨d', hd', h'⟩ := hshows.run hrun
  refine ⟨d', ?_, h'⟩
  rw [run, hstart]
  exact hd'

theorem run_off (settings : Settings) (workingDirectory path : List UInt8)
    (hrun : (View.off name).run script = some v) :
    ∃ d, run script .off settings workingDirectory path name = .ok d ∧ d.Shows v :=
  run_of_start rfl ⟨rfl, rfl, ⟨.off, rfl⟩, rfl⟩ hrun

theorem start_fixed {schema : Schema} {r : Recorder} {m : Module} {event : Option Event}
    (hcreate : Recorder.create (some schema) settings workingDirectory path { name } =
      .ok (r, m, event)) :
    ∃ d, Drive.start (.fixed schema) settings workingDirectory path name = .ok d ∧
      d.Shows { module := m, recorder := r } := by
  simp only [Drive.start, Session.perform, RecorderChoice.schema, Session.start, hcreate, bind_ok]
  exact ⟨_, rfl, rfl, rfl, ⟨.fixed schema, rfl⟩, rfl⟩

theorem run_typed (hpath : SourceFile.ofPath workingDirectory path = .ok source)
    (hrun : (View.typed settings source name).run script = some v) :
    ∃ d, run script (.fixed .modern) settings workingDirectory path name = .ok d ∧
      d.Shows v := by
  have hcreate : Recorder.create (some .modern) settings workingDirectory path { name } =
      .ok ((View.typed settings source name).recorder, (View.typed settings source name).module,
        some (.created .modern source)) := by
    simp only [Recorder.create, hpath, bind_ok]
    rfl
  obtain ⟨d, hd, hshows⟩ := start_fixed hcreate
  exact run_of_start hd hshows hrun

theorem run_tagged (hpath : SourceFile.ofPath workingDirectory path = .ok source)
    (hrun : (View.tagged settings source name).run script = some v) :
    ∃ d, run script (.fixed .legacy) settings workingDirectory path name = .ok d ∧
      d.Shows v := by
  have hcreate : Recorder.create (some .legacy) settings workingDirectory path { name } =
      .ok ((View.tagged settings source name).recorder,
        (View.tagged settings source name).module, some (.created .legacy source)) := by
    simp only [Recorder.create, hpath, bind_ok]
    rfl
  obtain ⟨d, hd, hshows⟩ := start_fixed hcreate
  exact run_of_start hd hshows hrun

end DebugMetadata.Script

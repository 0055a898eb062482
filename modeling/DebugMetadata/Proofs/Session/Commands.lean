import DebugMetadata.Proofs.Recorder.Cases
import DebugMetadata.Session.Basic

/-!
# Commands as cases

What a session is after each command that succeeds, with what the command found
in the session before.
-/

namespace DebugMetadata.Session

/-- A command that succeeds gives this answer and this session. -/
inductive Performs (s : Session) : Command → Answer → Session → Prop where
  | setSourceFilename (filename : String) :
    s.Performs (.setSourceFilename filename) .done
      { s with module := { s.module with sourceFilename := some filename } }
  | addFunction (name : String) (signature : Signature)
      (hfresh : s.module.functionIndex.contains name = false) :
    s.Performs (.addFunction name signature) (.function ⟨s.module.functions.size⟩)
      { s with module := s.module.pushFunction name signature }
  | appendBlock (function : FunctionId) (label : String)
      (hlt : function.index < s.module.functions.size) :
    s.Performs (.appendBlock function label) (.block ⟨s.module.blocks.size⟩)
      { s with module := s.module.pushBlock function label }
  | edit (edit : Graph.Edit) {answer : Answer} {graph : Graph}
      (hedit : s.module.graph.perform edit = .ok (answer, graph)) :
    s.Performs (.edit edit) answer { s with module := { s.module with graph } }
  | attachToFunction {function : FunctionId} {f : Function} (key : String) (node : NodeId)
      (hf : s.module.function? function = some f) :
    s.Performs (.attachToFunction function key node) .done
      { s with module := s.module.attachToFunction function key node }
  | attachToInstruction {instr : InstrId} {i : Instruction} (key : String) (node : NodeId)
      (hi : s.module.instruction? instr = some i) :
    s.Performs (.attachToInstruction instr key node) .done
      { s with module := s.module.attachToInstruction instr key node }
  | addFlag (flag : ModuleFlag) :
    s.Performs (.addFlag flag) (.added (s.module.graph.addFlag flag).1)
      { s with module := { s.module with graph := (s.module.graph.addFlag flag).2 } }
  | openCursor (block : BlockId) :
    s.Performs (.openCursor block) (.cursor s.cursors.size)
      { s with cursors := s.cursors.push { block } }
  | moveTo {n : Nat} {c : Cursor} (block : BlockId) (hc : s.cursors[n]? = some c) :
    s.Performs (.cursor n (.moveTo block)) .done (s.setCursor n (c.moveTo block))
  | locate {n : Nat} {c : Cursor} (location : Option NodeId) (hc : s.cursors[n]? = some c) :
    s.Performs (.cursor n (.locate location)) .done (s.setCursor n (c.locate location))
  | emit {n : Nat} {c : Cursor} (operation : Operation) (hc : s.cursors[n]? = some c)
      (hblock : c.block.index < s.module.blocks.size) :
    s.Performs (.cursor n (.emit operation)) (.instr ⟨s.module.instructions.size⟩)
      { s with
        module := s.module.pushInstruction
          { operation, block := c.block, location := c.location } }
  | createRecorder (choice : RecorderChoice) (settings : Settings) (path : List UInt8)
      {r : Recorder} {m : Module} {event : Option Event}
      (hcreate : Recorder.create (choice.schema settings) settings s.workingDirectory path
        s.module = .ok (r, m, event)) :
    s.Performs (.createRecorder choice settings path) (.recorder s.recorders.size)
      ({ s with module := m, recorders := s.recorders.push ⟨choice, r⟩ }.report event)
  | clone {n : Nat} {slot : RecorderSlot} (hslot : s.recorders[n]? = some slot)
      (hexposed : slot.isExposed = true) :
    s.Performs (.recorder n .clone) (.recorder s.recorders.size)
      { s with recorders := s.recorders.push slot }
  | markSubprogram {n : Nat} {slot : RecorderSlot} (function : FunctionId) (name : String)
      (line : Nat) {r : Recorder} {m : Module} {event : Option Event}
      (hslot : s.recorders[n]? = some slot)
      (hmark : slot.recorder.markSubprogram s.module function name line = .ok (r, m, event)) :
    s.Performs (.recorder n (.markSubprogram function name line)) .done
      (({ s with module := m }.setRecorder n r).report event)
  | markLocation {n k : Nat} {slot : RecorderSlot} {c c' : Cursor} (line : Nat) {r : Recorder}
      {m : Module} {event : Option Event} (hslot : s.recorders[n]? = some slot)
      (hc : s.cursors[k]? = some c)
      (hmark : slot.recorder.markLocation s.module c line = .ok (r, c', m, event)) :
    s.Performs (.recorder n (.markLocation k line)) (.location c'.location)
      ((({ s with module := m }.setRecorder n r).setCursor k c').report event)
  | finalize {n : Nat} {slot : RecorderSlot} (hslot : s.recorders[n]? = some slot) :
    s.Performs (.recorder n .finalize) .done
      ({ s with module := (slot.recorder.finalize s.module).1 }.report
        (slot.recorder.finalize s.module).2)
  | addSubprogram {n : Nat} {slot : RecorderSlot} (name linkageName : String) (line : Nat)
      {id : NodeId} {r : Recorder} {m : Module} (hslot : s.recorders[n]? = some slot)
      (hexposed : slot.isExposed = true)
      (hadd : slot.recorder.addSubprogram? name linkageName line s.module = some (id, r, m)) :
    s.Performs (.recorder n (.addSubprogram name linkageName line)) (.node id)
      ({ s with module := m }.setRecorder n r)
  | addLocation {n : Nat} {slot : RecorderSlot} (line : Nat) {id : NodeId} {m : Module}
      (hslot : s.recorders[n]? = some slot) (hexposed : slot.isExposed = true)
      (hadd : slot.recorder.addLocation? line s.module = some (.ok (id, m))) :
    s.Performs (.recorder n (.addLocation line)) (.node id) { s with module := m }

variable {s s' : Session} {n : Nat} {answer : Answer} {command : Command}

/-! ## Looking up -/

private theorem found_eq_ok {α : Type} {x : Option α} {a : α} (h : found x = .ok a) :
    x = some a := by
  cases x with
  | none => cases h
  | some b =>
      cases h
      rfl

private theorem cursor_eq_ok {c : Cursor} (h : s.cursor n = .ok c) : s.cursors[n]? = some c := by
  rw [cursor] at h
  split at h
  next => cases h
  next hn =>
    cases h
    exact hn

private theorem slot_eq_ok {slot : RecorderSlot} (h : s.slot n = .ok slot) :
    s.recorders[n]? = some slot := by
  rw [Session.slot] at h
  split at h
  next => cases h
  next hn =>
    cases h
    exact hn

/-! ## The cases -/

private theorem performs_of_cursor {command : CursorCommand}
    (h : s.performCursor n command = .ok (answer, s')) :
    s.Performs (.cursor n command) answer s' := by
  rw [performCursor] at h
  obtain ⟨c, hcursor, h⟩ := bind_eq_ok h
  have hc := cursor_eq_ok hcursor
  cases command with
  | moveTo block =>
      cases h
      exact .moveTo block hc
  | locate location =>
      cases h
      exact .locate location hc
  | emit operation =>
      obtain ⟨⟨id, m⟩, hfound, h⟩ := bind_eq_ok h
      have hemit := found_eq_ok hfound
      by_cases hblock : c.block.index < s.module.blocks.size
      · rw [Module.emit?_of_lt operation hblock] at hemit
        cases hemit
        cases h
        exact .emit operation hc hblock
      · rw [Module.emit?, Module.appendInstruction?, if_neg hblock] at hemit
        cases hemit

private theorem performs_of_recorder {command : RecorderCommand}
    (h : s.performRecorder n command = .ok (answer, s')) :
    s.Performs (.recorder n command) answer s' := by
  rw [performRecorder] at h
  obtain ⟨slot, hfound, h⟩ := bind_eq_ok h
  have hslot := slot_eq_ok hfound
  cases command with
  | clone =>
      dsimp only at h
      split at h
      next hexposed =>
        cases h
        exact .clone hslot hexposed
      next => cases h
  | markSubprogram function name line =>
      obtain ⟨⟨r, m, event⟩, hmark, h⟩ := bind_eq_ok h
      cases h
      exact .markSubprogram function name line hslot hmark
  | markLocation k line =>
      obtain ⟨c, hcursor, h⟩ := bind_eq_ok h
      obtain ⟨⟨r, c', m, event⟩, hmark, h⟩ := bind_eq_ok h
      cases h
      exact .markLocation line hslot (cursor_eq_ok hcursor) hmark
  | finalize =>
      cases h
      exact .finalize hslot
  | addSubprogram name linkageName line =>
      dsimp only at h
      split at h
      next id r m hexposed hadd =>
        cases h
        exact .addSubprogram name linkageName line hslot hexposed hadd
      next => cases h
  | addLocation line =>
      dsimp only at h
      split at h
      next result hexposed hadd =>
        obtain ⟨⟨id, m⟩, rfl, h⟩ := bind_eq_ok h
        cases h
        exact .addLocation line hslot hexposed hadd
      next => cases h

theorem performs_of_ok (h : s.perform command = .ok (answer, s')) :
    s.Performs command answer s' := by
  cases command with
  | setSourceFilename filename =>
      cases h
      exact .setSourceFilename filename
  | addFunction name signature =>
      obtain ⟨⟨id, m⟩, hadd, h⟩ := bind_eq_ok h
      cases htaken : s.module.functionIndex.contains name with
      | true =>
          rw [Module.addFunction, if_pos htaken] at hadd
          cases hadd
      | false =>
          rw [Module.addFunction_of_not_contains htaken] at hadd
          cases hadd
          cases h
          exact .addFunction name signature htaken
  | appendBlock function label =>
      obtain ⟨⟨id, m⟩, hfound, h⟩ := bind_eq_ok h
      have happend := found_eq_ok hfound
      by_cases hlt : function.index < s.module.functions.size
      · rw [Module.appendBlock?_of_lt hlt] at happend
        cases happend
        cases h
        exact .appendBlock function label hlt
      · rw [Module.appendBlock?, if_neg hlt] at happend
        cases happend
  | edit edit =>
      obtain ⟨⟨answer', graph⟩, hedit, h⟩ := bind_eq_ok h
      cases h
      exact .edit edit hedit
  | attachToFunction function key node =>
      obtain ⟨f, hfound, h⟩ := bind_eq_ok h
      cases h
      exact .attachToFunction key node (found_eq_ok hfound)
  | attachToInstruction instr key node =>
      obtain ⟨i, hfound, h⟩ := bind_eq_ok h
      cases h
      exact .attachToInstruction key node (found_eq_ok hfound)
  | addFlag flag =>
      cases h
      exact .addFlag flag
  | openCursor block =>
      cases h
      exact .openCursor block
  | cursor n command => exact performs_of_cursor h
  | createRecorder choice settings path =>
      obtain ⟨⟨r, m, event⟩, hcreate, h⟩ := bind_eq_ok h
      cases h
      exact .createRecorder choice settings path hcreate
  | recorder n command => exact performs_of_recorder h

/-! ## Commands that succeed -/

theorem perform_addFunction_eq (s : Session) (name : String) (signature : Signature) :
    s.perform (.addFunction name signature) =
      (s.module.addFunction name signature).map fun added =>
        (.function added.1, { s with module := added.2 }) := by
  simp only [perform, bind, Except.bind]
  cases s.module.addFunction name signature <;> rfl

theorem perform_addFunction {name : String} (signature : Signature)
    (hfresh : s.module.functionIndex.contains name = false) :
    s.perform (.addFunction name signature) =
      .ok (.function ⟨s.module.functions.size⟩,
        { s with module := s.module.pushFunction name signature }) := by
  rw [perform_addFunction_eq, Module.addFunction_of_not_contains hfresh]
  rfl

/-- A new session in which one function is declared. -/
def startDeclaring (workingDirectory : List UInt8) (name function : String)
    (signature : Signature) : Session :=
  { start workingDirectory name with
    module := ({ name } : Module).pushFunction function signature }

/-- The first declaration, as an equation: no kernel computation looks a name up in an
index. -/
theorem perform_start_addFunction (workingDirectory : List UInt8) (name function : String)
    (signature : Signature) :
    (start workingDirectory name).perform (.addFunction function signature) =
      .ok (.function ⟨0⟩, startDeclaring workingDirectory name function signature) :=
  perform_addFunction signature Std.HashMap.contains_empty

/-! A call of a recorder is what the recorder makes of it. -/

theorem perform_recorder_of_none (hslot : s.recorders[n]? = none) (command : RecorderCommand) :
    s.perform (.recorder n command) = .error (.unknownRecorder n) := by
  simp only [perform, performRecorder, Session.slot, hslot, bind, Except.bind]

theorem perform_clone {slot : RecorderSlot} (hslot : s.recorders[n]? = some slot) :
    s.perform (.recorder n .clone) =
      if slot.isExposed then
        .ok (.recorder s.recorders.size, { s with recorders := s.recorders.push slot })
      else .error (.notOffered n) := by
  simp only [perform, performRecorder, Session.slot, hslot, bind, Except.bind]
  rfl

theorem perform_markSubprogram {slot : RecorderSlot} (hslot : s.recorders[n]? = some slot)
    (function : FunctionId) (name : String) (line : Nat) :
    s.perform (.recorder n (.markSubprogram function name line)) =
      (slot.recorder.markSubprogram s.module function name line).map fun marked =>
        (.done, ({ s with module := marked.2.1 }.setRecorder n marked.1).report marked.2.2) := by
  simp only [perform, performRecorder, Session.slot, hslot, bind, Except.bind]
  cases slot.recorder.markSubprogram s.module function name line <;> rfl

theorem perform_markLocation_of_none {slot : RecorderSlot} (hslot : s.recorders[n]? = some slot)
    {k : Nat} (hc : s.cursors[k]? = none) (line : Nat) :
    s.perform (.recorder n (.markLocation k line)) = .error (.unknownCursor k) := by
  simp only [perform, performRecorder, Session.slot, cursor, hslot, hc, bind, Except.bind]

theorem perform_markLocation {slot : RecorderSlot} {k : Nat} {c : Cursor}
    (hslot : s.recorders[n]? = some slot) (hc : s.cursors[k]? = some c) (line : Nat) :
    s.perform (.recorder n (.markLocation k line)) =
      (slot.recorder.markLocation s.module c line).map fun marked =>
        (.location marked.2.1.location,
          (({ s with module := marked.2.2.1 }.setRecorder n marked.1).setCursor k
            marked.2.1).report marked.2.2.2) := by
  simp only [perform, performRecorder, Session.slot, cursor, hslot, hc, bind, Except.bind]
  cases slot.recorder.markLocation s.module c line <;> rfl

theorem perform_markLocation_of_ok {k line : Nat} {slot : RecorderSlot} {c c' : Cursor}
    {r : Recorder} {m : Module} {event : Option Event} (hslot : s.recorders[n]? = some slot)
    (hc : s.cursors[k]? = some c)
    (hmark : slot.recorder.markLocation s.module c line = .ok (r, c', m, event)) :
    s.perform (.recorder n (.markLocation k line)) =
      .ok (.location c'.location,
        (({ s with module := m }.setRecorder n r).setCursor k c').report event) := by
  rw [perform_markLocation hslot hc, hmark]
  rfl

theorem perform_finalize {slot : RecorderSlot} (hslot : s.recorders[n]? = some slot) :
    s.perform (.recorder n .finalize) =
      .ok (.done, { s with module := (slot.recorder.finalize s.module).1 }.report
        (slot.recorder.finalize s.module).2) := by
  simp only [perform, performRecorder, Session.slot, hslot, bind, Except.bind]
  rfl

theorem perform_addSubprogram {slot : RecorderSlot} (hslot : s.recorders[n]? = some slot)
    (name linkageName : String) (line : Nat) :
    s.perform (.recorder n (.addSubprogram name linkageName line)) =
      match slot.isExposed, slot.recorder.addSubprogram? name linkageName line s.module with
      | true, some (id, r, m) => .ok (.node id, { s with module := m }.setRecorder n r)
      | _, _ => .error (.notOffered n) := by
  simp only [perform, performRecorder, Session.slot, hslot, bind, Except.bind]
  rfl

theorem perform_addLocation {slot : RecorderSlot} (hslot : s.recorders[n]? = some slot)
    (line : Nat) :
    s.perform (.recorder n (.addLocation line)) =
      match slot.isExposed, slot.recorder.addLocation? line s.module with
      | true, some result =>
        result.map fun added => (.node added.1, { s with module := added.2 })
      | _, _ => .error (.notOffered n) := by
  simp only [perform, performRecorder, Session.slot, hslot, bind, Except.bind]
  cases slot.isExposed with
  | false => rfl
  | true =>
      cases slot.recorder.addLocation? line s.module with
      | none => rfl
      | some result => cases result <;> rfl

/-- A recorder is created as its choice and the settings have it. -/
theorem perform_createRecorder_eq (s : Session) (choice : RecorderChoice) (settings : Settings)
    (path : List UInt8) :
    s.perform (.createRecorder choice settings path) =
      (Recorder.create (choice.schema settings) settings s.workingDirectory path s.module).map
        fun created => (.recorder s.recorders.size,
          { s with
            module := created.2.1
            recorders := s.recorders.push ⟨choice, created.1⟩ }.report created.2.2) := by
  simp only [perform, bind, Except.bind]
  cases Recorder.create (choice.schema settings) settings s.workingDirectory path s.module <;> rfl

theorem perform_createRecorder {choice : RecorderChoice} {schema : Schema} {source : SourceFile}
    {path : List UInt8} (settings : Settings) (hschema : choice.schema settings = some schema)
    (hsource : SourceFile.ofPath s.workingDirectory path = .ok source) :
    ∃ s', s.perform (.createRecorder choice settings path) =
      .ok (.recorder s.recorders.size, s') := by
  obtain ⟨r, m, hcreate⟩ := Recorder.create_ok schema settings hsource s.module
  rw [perform_createRecorder_eq, hschema, hcreate]
  exact ⟨_, rfl⟩

/-! ## Recorders by number -/

theorem getElem?_setRecorder_self {slot : RecorderSlot} (hslot : s.recorders[n]? = some slot)
    (r : Recorder) :
    (s.setRecorder n r).recorders[n]? = some { slot with recorder := r } := by
  rw [setRecorder, Array.getElem?_modify, if_pos rfl, hslot]
  rfl

theorem getElem?_setRecorder_of_ne {k : Nat} (hne : k ≠ n) (r : Recorder) :
    (s.setRecorder n r).recorders[k]? = s.recorders[k]? := by
  rw [setRecorder, Array.getElem?_modify, if_neg (Ne.symm hne)]

theorem recorders_modify_self {slot : RecorderSlot} (hslot : s.recorders[n]? = some slot) :
    (s.recorders.modify n ({ · with recorder := slot.recorder })) = s.recorders := by
  apply Module.modify_eq_self
  intro slot' hslot'
  cases hslot.symm.trans hslot'
  rfl

theorem setRecorder_self {slot : RecorderSlot} (hslot : s.recorders[n]? = some slot) :
    s.setRecorder n slot.recorder = s := by
  rw [setRecorder, recorders_modify_self hslot]

theorem size_setRecorder (s : Session) (n : Nat) (r : Recorder) :
    (s.setRecorder n r).recorders.size = s.recorders.size :=
  Array.size_modify

/-! ## Cursors by number -/

theorem cursors_modify_self {c : Cursor} (hc : s.cursors[n]? = some c) :
    (s.cursors.modify n fun _ => c) = s.cursors :=
  Module.modify_eq_self fun _ hx => Option.some.inj (hc.symm.trans hx)

theorem setCursor_self {c : Cursor} (hc : s.cursors[n]? = some c) : s.setCursor n c = s := by
  rw [setCursor, cursors_modify_self hc]

/-! ## The log -/

theorem report_none (s : Session) : s.report none = s := by
  rw [report, Option.toArray_none, Array.append_empty]

/-! ## Growth -/

theorem Performs.workingDirectory_eq (h : s.Performs command answer s') :
    s'.workingDirectory = s.workingDirectory := by
  cases h <;> rfl

theorem Performs.grows (h : s.Performs command answer s') :
    s.module.graph.Grows s'.module.graph := by
  cases h with
  | edit edit hedit => exact Graph.grows_perform hedit
  | addFlag flag => exact s.module.graph.grows_addFlag flag
  | createRecorder choice settings path hcreate => exact Recorder.grows_create hcreate
  | markSubprogram function name line hslot hmark => exact Recorder.grows_markSubprogram hmark
  | markLocation line hslot hc hmark => exact Recorder.grows_markLocation hmark
  | finalize hslot => exact Recorder.grows_finalize _ s.module
  | addSubprogram name linkageName line hslot hexposed hadd =>
      exact Recorder.grows_addSubprogram? hadd
  | addLocation line hslot hexposed hadd => exact Recorder.grows_addLocation? hadd
  | _ => exact .refl _

end DebugMetadata.Session

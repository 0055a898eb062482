import DebugMetadata.Proofs.Session.Origins
import DebugMetadata.Proofs.Session.Runs

/-!
# How a recorder was chosen

How a recorder was chosen settles which calls it offers, and nothing else: all the calls that
every recorder offers do the same in a session where a recorder was chosen otherwise.
-/

namespace DebugMetadata

/-- Whether the call is one that every recorder offers. -/
def RecorderCommand.isCommon : RecorderCommand → Bool
  | .markSubprogram _ _ _ | .markLocation _ _ | .finalize => true
  | .clone | .addSubprogram _ _ _ | .addLocation _ => false

/-- Whether the command calls the recorder of a number. -/
def Command.calls (n : Nat) : Command → Bool
  | .recorder k _ => k == n
  | _ => false

/-- Whether the command asks of the recorder of a number only what every recorder offers. -/
def Command.isCommonTo (n : Nat) : Command → Bool
  | .recorder k command => k != n || command.isCommon
  | _ => true

theorem Command.exists_of_calls {n : Nat} {command : Command} (h : command.calls n = true) :
    ∃ call, command = .recorder n call := by
  cases command with
  | recorder k call =>
      rw [calls, beq_iff_eq] at h
      exact ⟨call, h ▸ rfl⟩
  | _ => cases h

namespace Session

variable {s s' : Session} {n : Nat} {choice : RecorderChoice} {command : Command}

/-- The session as if the recorder of a number had been chosen otherwise. -/
def withChoice (s : Session) (n : Nat) (choice : RecorderChoice) : Session :=
  { s with recorders := s.recorders.modify n ({ · with choice }) }

/-! ## Recorders by number -/

theorem getElem?_withChoice_self (s : Session) (n : Nat) (choice : RecorderChoice) :
    (s.withChoice n choice).recorders[n]? = s.recorders[n]?.map ({ · with choice }) := by
  rw [withChoice, Array.getElem?_modify, if_pos rfl]

theorem getElem?_withChoice_of_ne {k : Nat} (hk : k ≠ n) :
    (s.withChoice n choice).recorders[k]? = s.recorders[k]? := by
  rw [withChoice, Array.getElem?_modify, if_neg (Ne.symm hk)]

theorem module_withChoice (s : Session) (n : Nat) (choice : RecorderChoice) :
    (s.withChoice n choice).module = s.module := rfl

theorem size_withChoice (s : Session) (n : Nat) (choice : RecorderChoice) :
    (s.withChoice n choice).recorders.size = s.recorders.size :=
  Array.size_modify

theorem setRecorder_withChoice (s : Session) (n k : Nat) (choice : RecorderChoice)
    (r : Recorder) :
    (s.withChoice n choice).setRecorder k r = (s.setRecorder k r).withChoice n choice := by
  have hrecorders :
      ((s.recorders.modify n ({ · with choice })).modify k ({ · with recorder := r })) =
        (s.recorders.modify k ({ · with recorder := r })).modify n ({ · with choice }) := by
    apply Array.ext_getElem?
    intro j
    simp only [Array.getElem?_modify]
    split <;> split <;> cases s.recorders[j]? <;> rfl
  simp only [setRecorder, withChoice, hrecorders]

theorem push_withChoice (hn : n < s.recorders.size) (slot : RecorderSlot) :
    (s.withChoice n choice).recorders.push slot =
      (s.recorders.push slot).modify n ({ · with choice }) := by
  apply Array.ext_getElem?
  intro j
  rw [withChoice, Array.getElem?_push, Array.getElem?_modify, Array.getElem?_modify,
    Array.getElem?_push, Array.size_modify]
  by_cases hj : j = s.recorders.size
  · rw [if_pos hj, if_pos hj, if_neg (by omega)]
  · rw [if_neg hj, if_neg hj]

/-! ## Commands -/

/-- The answer with the session as if the recorder of a number had been chosen otherwise. -/
def rechosen (n : Nat) (choice : RecorderChoice) (done : Answer × Session) : Answer × Session :=
  (done.1, done.2.withChoice n choice)

theorem performCursor_withChoice (s : Session) (n : Nat) (choice : RecorderChoice) (k : Nat)
    (command : CursorCommand) :
    (s.withChoice n choice).performCursor k command =
      (s.performCursor k command).map (rechosen n choice) := by
  have hcursor : (s.withChoice n choice).cursor k = s.cursor k := rfl
  rw [performCursor, performCursor, hcursor]
  cases s.cursor k with
  | error fault => rfl
  | ok c =>
      cases command with
      | moveTo block => rfl
      | locate location => rfl
      | emit operation =>
          simp only [withChoice, bind, Except.bind]
          cases found (s.module.emit? c operation) <;> rfl

/-- The slot of a recorder keeps the recorder, and the slot of another one is the same. -/
theorem exists_slot_withChoice {k : Nat} {slot : RecorderSlot}
    (hslot : s.recorders[k]? = some slot) (n : Nat) (choice : RecorderChoice) :
    ∃ slot', (s.withChoice n choice).recorders[k]? = some slot' ∧
      slot'.recorder = slot.recorder ∧ (k ≠ n → slot' = slot) := by
  by_cases hk : k = n
  · subst hk
    rw [getElem?_withChoice_self, hslot]
    exact ⟨_, rfl, rfl, fun hne => absurd rfl hne⟩
  · rw [getElem?_withChoice_of_ne hk]
    exact ⟨slot, hslot, rfl, fun _ => rfl⟩

theorem perform_recorder_withChoice (hn : n < s.recorders.size) {k : Nat}
    {command : RecorderCommand} (h : k ≠ n ∨ command.isCommon = true) :
    (s.withChoice n choice).perform (.recorder k command) =
      (s.perform (.recorder k command)).map (rechosen n choice) := by
  cases hslot : s.recorders[k]? with
  | none =>
      have hslot' : (s.withChoice n choice).recorders[k]? = none := by
        rw [Array.getElem?_eq_none_iff, size_withChoice]
        exact Array.getElem?_eq_none_iff.mp hslot
      rw [perform_recorder_of_none hslot, perform_recorder_of_none hslot']
      rfl
  | some slot =>
      obtain ⟨slot', hslot', hrecorder, hother⟩ := exists_slot_withChoice hslot n choice
      cases command with
      | clone =>
          rw [perform_clone hslot', perform_clone hslot, hother (h.resolve_right nofun),
            push_withChoice hn, size_withChoice]
          cases slot.isExposed <;> rfl
      | markSubprogram function name line =>
          rw [perform_markSubprogram hslot', perform_markSubprogram hslot, hrecorder]
          change (slot.recorder.markSubprogram s.module function name line).map _ = _
          cases slot.recorder.markSubprogram s.module function name line with
          | error fault => rfl
          | ok marked =>
              have hset :=
                setRecorder_withChoice { s with module := marked.2.1 } n k choice marked.1
              exact congrArg (fun s => Except.ok (Answer.done, s.report marked.2.2)) hset
      | markLocation j line =>
          cases hc : s.cursors[j]? with
          | none =>
              have hc' : (s.withChoice n choice).cursors[j]? = none := hc
              rw [perform_markLocation_of_none hslot hc, perform_markLocation_of_none hslot' hc']
              rfl
          | some c =>
              have hc' : (s.withChoice n choice).cursors[j]? = some c := hc
              rw [perform_markLocation hslot' hc', perform_markLocation hslot hc, hrecorder]
              change (slot.recorder.markLocation s.module c line).map _ = _
              cases slot.recorder.markLocation s.module c line with
              | error fault => rfl
              | ok marked =>
                  have hset :=
                    setRecorder_withChoice { s with module := marked.2.2.1 } n k choice marked.1
                  exact congrArg (fun s => Except.ok (Answer.location marked.2.1.location,
                    (s.setCursor j marked.2.1).report marked.2.2.2)) hset
      | finalize =>
          rw [perform_finalize hslot', perform_finalize hslot, hrecorder]
          rfl
      | addSubprogram name linkageName line =>
          rw [perform_addSubprogram hslot', perform_addSubprogram hslot,
            hother (h.resolve_right nofun), module_withChoice]
          cases slot.isExposed with
          | false => rfl
          | true =>
              cases slot.recorder.addSubprogram? name linkageName line s.module with
              | none => rfl
              | some added =>
                  have hset := setRecorder_withChoice { s with module := added.2.2 } n k choice
                    added.2.1
                  exact congrArg (fun s => Except.ok (Answer.node added.1, s)) hset
      | addLocation line =>
          rw [perform_addLocation hslot', perform_addLocation hslot,
            hother (h.resolve_right nofun), module_withChoice]
          cases slot.isExposed with
          | false => rfl
          | true =>
              cases slot.recorder.addLocation? line s.module with
              | none => rfl
              | some result => cases result <;> rfl

theorem perform_withChoice (hn : n < s.recorders.size) (h : command.isCommonTo n = true) :
    (s.withChoice n choice).perform command = (s.perform command).map (rechosen n choice) := by
  cases command with
  | setSourceFilename filename => rfl
  | addFunction name signature =>
      simp only [perform, withChoice, bind, Except.bind]
      cases s.module.addFunction name signature <;> rfl
  | appendBlock function label =>
      simp only [perform, withChoice, bind, Except.bind]
      cases found (s.module.appendBlock? function label) <;> rfl
  | edit edit =>
      simp only [perform, withChoice, bind, Except.bind]
      cases s.module.graph.perform edit <;> rfl
  | attachToFunction function key node =>
      simp only [perform, withChoice, bind, Except.bind]
      cases found (s.module.function? function) <;> rfl
  | attachToInstruction instr key node =>
      simp only [perform, withChoice, bind, Except.bind]
      cases found (s.module.instruction? instr) <;> rfl
  | addFlag flag => rfl
  | openCursor block => rfl
  | cursor k command => exact performCursor_withChoice s n choice k command
  | createRecorder choice' settings path =>
      simp only [perform_createRecorder_eq, push_withChoice hn, size_withChoice]
      change Except.map _ (Recorder.create _ settings s.workingDirectory path s.module) = _
      cases Recorder.create (choice'.schema settings) settings s.workingDirectory path s.module
      · rfl
      · rfl
  | recorder k command =>
      rw [Command.isCommonTo, Bool.or_eq_true, bne_iff_ne] at h
      exact perform_recorder_withChoice hn h

/-! ## Runs -/

/-- A run that asks of a recorder only what every recorder offers does the same however the
recorder was chosen. -/
theorem run_withChoice {commands : List Command} :
    ∀ {s : Session}, n < s.recorders.size → (∀ command ∈ commands, command.isCommonTo n = true) →
      (s.withChoice n choice).run commands =
        ((s.run commands).1, (s.run commands).2.withChoice n choice) := by
  induction commands with
  | nil => exact fun _ _ => rfl
  | cons command rest ih =>
      intro s hn hcommon
      have hrest : ∀ command ∈ rest, command.isCommonTo n = true :=
        fun c hc => hcommon c (List.mem_cons_of_mem _ hc)
      have hperform : (s.withChoice n choice).perform command =
          (s.perform command).map (rechosen n choice) :=
        perform_withChoice hn (hcommon command List.mem_cons_self)
      rw [run, run, hperform]
      cases hcommand : s.perform command with
      | ok done =>
          have hle := (performs_of_ok hcommand).recorders_le
          simp only [Except.map, rechosen, ih (Nat.lt_of_lt_of_le hn hle) hrest]
      | error fault =>
          cases fault with
          | dangling => rfl
          | _ => simp only [Except.map, ih hn hrest]

end Session

end DebugMetadata

import DebugMetadata.Proofs.Session.Runs

/-!
# Histories

What each recorder of a session was told so far.  A history is kept beside the
run from the calls alone: a recorder need not remember it.  A clone goes on with
the history of the recorder it was made from.
-/

namespace DebugMetadata

/-- A subprogram that a recorder registered, and what it was told of it. -/
structure Registration where
  id : NodeId
  name : String
  linkageName : String
  line : Nat
  deriving DecidableEq, Repr

/-- What a recorder was told, in order. -/
structure History where
  lines : List Nat := []
  registrations : List Registration := []
  deriving DecidableEq, Repr

/-- The line that a recorder is told to mark. -/
def RecorderCommand.line? : RecorderCommand → Option Nat
  | .markLocation _ line => some line
  | _ => none

/-- The subprogram that a recorder registers when it is told something. -/
def Recorder.registration? (r : Recorder) (m : Module) : RecorderCommand → Option Registration
  | .markSubprogram function name line => do
    let f ← m.function? function
    let (id, _) ← r.addSubprogram? name f.name line m
    return ⟨id, name, f.name, line⟩
  | .addSubprogram name linkageName line => do
    let (id, _) ← r.addSubprogram? name linkageName line m
    return ⟨id, name, linkageName, line⟩
  | _ => none

theorem Recorder.registration?_off (m : Module) (command : RecorderCommand) :
    Recorder.off.registration? m command = none := by
  cases command with
  | markSubprogram function name line =>
      simp only [registration?, addSubprogram?]
      cases m.function? function <;> rfl
  | _ => rfl

namespace History

/-- The history after a recorder is told something. -/
def add (h : History) (r : Recorder) (m : Module) (command : RecorderCommand) : History :=
  { lines := h.lines ++ command.line?.toList
    registrations := h.registrations ++ (r.registration? m command).toList }

/-- A recorder that is told neither of a line nor of a subprogram has no more to
remember. -/
theorem add_of_none {r : Recorder} {m : Module} {command : RecorderCommand}
    (hline : command.line? = none) (hregistration : r.registration? m command = none)
    (h : History) : h.add r m command = h := by
  rw [add, hline, hregistration, Option.toList_none, List.append_nil, Option.toList_none,
    List.append_nil]

theorem add_addSubprogram {r r' : Recorder} {m m' : Module} {id : NodeId}
    {name linkageName : String} {line : Nat}
    (hadd : r.addSubprogram? name linkageName line m = some (id, r', m')) (h : History) :
    h.add r m (.addSubprogram name linkageName line) =
      { h with registrations := h.registrations ++ [⟨id, name, linkageName, line⟩] } := by
  simp only [add, RecorderCommand.line?, Recorder.registration?, hadd, Option.toList_none,
    List.append_nil]
  rfl

/-- A function is registered by its own name. -/
theorem add_markSubprogram {m : Module} {function : FunctionId} {f : Function}
    (hf : m.function? function = some f) (h : History) (r : Recorder) (name : String)
    (line : Nat) :
    h.add r m (.markSubprogram function name line) =
      h.add r m (.addSubprogram name f.name line) := by
  simp only [add, RecorderCommand.line?, Recorder.registration?, hf, bind, Option.bind]

theorem add_markLocation (h : History) (r : Recorder) (m : Module) (k line : Nat) :
    h.add r m (.markLocation k line) = { h with lines := h.lines ++ [line] } := by
  simp only [add, RecorderCommand.line?, Recorder.registration?, Option.toList_none,
    List.append_nil]
  rfl

/-- Whether a line is the first one, or differs from the one before it. -/
def IsNew (h : History) (line : Nat) : Prop :=
  h.lines = [] ∨ ∃ last, h.lines.getLast? = some last ∧ last ≠ line

theorem isNew_iff (h : History) (line : Nat) : h.IsNew line ↔ h.lines.getLast? ≠ some line := by
  cases hlast : h.lines.getLast? with
  | none =>
      have hempty : h.lines = [] := List.getLast?_eq_none_iff.mp hlast
      exact iff_of_true (.inl hempty) (Option.some_ne_none line).symm
  | some last =>
      rw [ne_eq, Option.some.injEq]
      constructor
      · rintro (hempty | ⟨last', hlast', hdiffers⟩)
        · rw [hempty] at hlast
          cases hlast
        · cases hlast.symm.trans hlast'
          exact hdiffers
      · intro hdiffers
        exact .inr ⟨last, hlast, hdiffers⟩

end History

namespace Session

/-- The histories of the recorders after a command that succeeds. -/
def historiesAfter (s : Session) (histories : Array History) : Command → Array History
  | .createRecorder _ _ _ => histories.push {}
  | .recorder n .clone => histories.push (histories.getD n {})
  | .recorder n command =>
    match s.recorders[n]? with
    | some slot => histories.modify n (·.add slot.recorder s.module command)
    | none => histories
  | _ => histories

/-- The histories of the recorders after a run. -/
def remember (s : Session) (histories : Array History) : List Command → Array History
  | [] => histories
  | command :: rest =>
    match s.perform command with
    | .ok (_, s') => s'.remember (s.historiesAfter histories command) rest
    | .error .dangling => histories
    | .error _ => s.remember histories rest

theorem remember_cons {s s' : Session} {command : Command} {answer : Answer}
    (h : s.perform command = .ok (answer, s')) (histories : Array History)
    (rest : List Command) :
    s.remember histories (command :: rest) =
      s'.remember (s.historiesAfter histories command) rest := by
  rw [remember, h]

/-- What every command keeps of a session and of the histories holds after a run. -/
theorem run_invariant {I : Session → Array History → Prop}
    (hstep : ∀ {s s' histories command answer}, I s histories →
      s.Performs command answer s' → I s' (s.historiesAfter histories command)) :
    ∀ {commands : List Command} {s : Session} {histories : Array History}, I s histories →
      I (s.run commands).2 (s.remember histories commands) := by
  intro commands
  induction commands with
  | nil => exact fun h => h
  | cons command rest ih =>
      intro s histories h
      rw [run, remember]
      cases hperform : s.perform command with
      | ok result =>
          obtain ⟨answer, s'⟩ := result
          exact ih (hstep h (performs_of_ok hperform))
      | error fault =>
          cases fault with
          | dangling => exact h
          | _ => exact ih h

end Session

end DebugMetadata

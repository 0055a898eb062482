import DebugMetadata.Proofs.Session.Commands

/-!
# Runs

A run is followed by something that is kept beside it and made anew by every
command that succeeds.  Where all these commands meet a condition, what each of
them preserves holds after the run.
-/

namespace DebugMetadata

/-- Whether the command leaves the metadata of the module to the recorders. -/
def Command.leavesMetadata : Command → Bool
  | .edit _ | .attachToFunction _ _ _ | .attachToInstruction _ _ _ | .addFlag _ => false
  | _ => true

namespace Session

variable {σ : Type} {after : Session → σ → Command → σ} {P : Session → σ → Command → Bool}

/-- What is kept beside a run, after it.  A command that fails leaves it as it is. -/
def follow (after : Session → σ → Command → σ) (s : Session) (kept : σ) : List Command → σ
  | [] => kept
  | command :: rest =>
    match s.perform command with
    | .ok (_, s') => s'.follow after (after s kept command) rest
    | .error .dangling => kept
    | .error _ => s.follow after kept rest

/-- Whether every command of a run that succeeds meets a condition on the session
before it and on what is kept beside the run. -/
def meets (after : Session → σ → Command → σ) (P : Session → σ → Command → Bool) (s : Session)
    (kept : σ) : List Command → Bool
  | [] => true
  | command :: rest =>
    match s.perform command with
    | .ok (_, s') => P s kept command && s'.meets after P (after s kept command) rest
    | .error .dangling => true
    | .error _ => s.meets after P kept rest

theorem run_cons_eq {s s' : Session} {command : Command} {answer : Answer}
    (h : s.perform command = .ok (answer, s')) (rest : List Command) :
    s.run (command :: rest) = (.ok answer :: (s'.run rest).1, (s'.run rest).2) := by
  rw [run, h]

theorem run_cons {s s' : Session} {command : Command} {answer : Answer}
    (h : s.perform command = .ok (answer, s')) (rest : List Command) :
    (s.run (command :: rest)).2 = (s'.run rest).2 := by
  rw [run_cons_eq h]

theorem follow_cons {s s' : Session} {command : Command} {answer : Answer}
    (h : s.perform command = .ok (answer, s')) (kept : σ) (rest : List Command) :
    s.follow after kept (command :: rest) = s'.follow after (after s kept command) rest := by
  rw [follow, h]

/-- A run goes on after a command that fails as if it had not been given, unless it met a
dangling handle. -/
theorem run_cons_eq_of_error {s : Session} {command : Command} {fault : Fault}
    (h : s.perform command = .error fault) (hfault : fault ≠ .dangling) (rest : List Command) :
    s.run (command :: rest) = (.error fault :: (s.run rest).1, (s.run rest).2) := by
  rw [run, h]
  cases fault with
  | dangling => exact absurd rfl hfault
  | _ => rfl

/-- A command that fails changes nothing, unless it ends the run. -/
theorem run_cons_of_error {s : Session} {command : Command} {fault : Fault}
    (h : s.perform command = .error fault) (hfault : fault ≠ .dangling) (rest : List Command) :
    (s.run (command :: rest)).2 = (s.run rest).2 := by
  rw [run_cons_eq_of_error h hfault]

/-- The command fails with the fault and leaves no trace: a run goes on as if it had not been
given. -/
def Refuses (s : Session) (command : Command) (fault : Fault) : Prop :=
  s.perform command = .error fault ∧
  ∀ rest, s.run (command :: rest) = (.error fault :: (s.run rest).1, (s.run rest).2)

theorem refuses_of_error {s : Session} {command : Command} {fault : Fault}
    (h : s.perform command = .error fault) (hfault : fault ≠ .dangling) :
    s.Refuses command fault :=
  ⟨h, run_cons_eq_of_error h hfault⟩

theorem follow_cons_of_error {s : Session} {command : Command} {fault : Fault}
    (h : s.perform command = .error fault) (hfault : fault ≠ .dangling) (kept : σ)
    (rest : List Command) :
    s.follow after kept (command :: rest) = s.follow after kept rest := by
  rw [follow, h]
  cases fault with
  | dangling => exact absurd rfl hfault
  | _ => rfl

theorem meets_cons {s s' : Session} {command : Command} {answer : Answer}
    (h : s.perform command = .ok (answer, s')) (kept : σ) (rest : List Command) :
    s.meets after P kept (command :: rest) =
      (P s kept command && s'.meets after P (after s kept command) rest) := by
  rw [meets, h]

/-- A condition on the commands alone is met by every run of such commands. -/
theorem meets_of_forall {Q : Command → Bool} {commands : List Command} :
    ∀ {s : Session} {kept : σ}, (∀ command ∈ commands, Q command = true) →
      s.meets after (fun _ _ => Q) kept commands = true := by
  induction commands with
  | nil => exact fun _ => rfl
  | cons command rest ih =>
      intro s kept h
      have hrest : ∀ command ∈ rest, Q command = true :=
        fun c hc => h c (List.mem_cons_of_mem _ hc)
      rw [meets]
      split
      · rw [h command List.mem_cons_self, ih hrest, Bool.and_self]
      · rfl
      · exact ih hrest

/-- A run that meets a condition, of commands that all meet another one, meets both. -/
theorem meets_and {Q : Command → Bool} {commands : List Command} :
    ∀ {s : Session} {kept : σ}, s.meets after P kept commands = true →
      (∀ command ∈ commands, Q command = true) →
      s.meets after (fun s kept command => P s kept command && Q command) kept commands = true := by
  induction commands with
  | nil => exact fun _ _ => rfl
  | cons command rest ih =>
      intro s kept hmeets hall
      have hrest : ∀ command ∈ rest, Q command = true :=
        fun c hc => hall c (List.mem_cons_of_mem _ hc)
      rw [meets] at hmeets ⊢
      cases hperform : s.perform command with
      | ok result =>
          rw [hperform, Bool.and_eq_true] at hmeets
          rw [hmeets.1, hall command List.mem_cons_self]
          exact ih hmeets.2 hrest
      | error fault =>
          rw [hperform] at hmeets
          cases fault with
          | dangling => rfl
          | _ => exact ih hmeets hrest

/-- What every command that succeeds and meets the condition preserves holds after a run. -/
theorem invariant_of_meets_ok {I : Session → σ → Prop}
    (hstep : ∀ {s s' kept command answer}, I s kept → P s kept command = true →
      s.perform command = .ok (answer, s') → I s' (after s kept command)) :
    ∀ {commands : List Command} {s : Session} {kept : σ}, I s kept →
      s.meets after P kept commands = true →
      I (s.run commands).2 (s.follow after kept commands) := by
  intro commands
  induction commands with
  | nil => exact fun h _ => h
  | cons command rest ih =>
      intro s kept h hmeets
      rw [meets] at hmeets
      rw [run, follow]
      cases hperform : s.perform command with
      | ok result =>
          obtain ⟨answer, s'⟩ := result
          rw [hperform, Bool.and_eq_true] at hmeets
          obtain ⟨hcommand, hrest⟩ := hmeets
          exact ih (hstep h hcommand hperform) hrest
      | error fault =>
          rw [hperform] at hmeets
          cases fault with
          | dangling => exact h
          | _ => exact ih h hmeets

/-- What is kept beside a run can be kept in another form, where every command that succeeds
keeps the forms in agreement. -/
theorem map_follow_of_meets {τ : Type} {f : σ → τ} {after' : Session → τ → Command → τ}
    {I : Session → σ → Prop}
    (hstep : ∀ {s s' kept command answer}, I s kept → P s kept command = true →
      s.perform command = .ok (answer, s') →
      I s' (after s kept command) ∧ f (after s kept command) = after' s (f kept) command) :
    ∀ {commands : List Command} {s : Session} {kept : σ}, I s kept →
      s.meets after P kept commands = true →
      f (s.follow after kept commands) = s.follow after' (f kept) commands := by
  intro commands
  induction commands with
  | nil => exact fun _ _ => rfl
  | cons command rest ih =>
      intro s kept h hmeets
      rw [meets] at hmeets
      rw [follow, follow]
      cases hperform : s.perform command with
      | ok result =>
          obtain ⟨answer, s'⟩ := result
          rw [hperform, Bool.and_eq_true] at hmeets
          obtain ⟨hcommand, hrest⟩ := hmeets
          obtain ⟨h', hafter⟩ := hstep h hcommand hperform
          rw [ih h' hrest, hafter]
      | error fault =>
          rw [hperform] at hmeets
          cases fault with
          | dangling => rfl
          | _ => exact ih h hmeets

theorem map_follow {τ : Type} {f : σ → τ} {after' : Session → τ → Command → τ}
    (hstep : ∀ {s s' kept command answer}, s.perform command = .ok (answer, s') →
      f (after s kept command) = after' s (f kept) command)
    (s : Session) (kept : σ) (commands : List Command) :
    f (s.follow after kept commands) = s.follow after' (f kept) commands := by
  refine map_follow_of_meets (P := fun _ _ _ => true) (I := fun _ _ => True)
    ?_ trivial (meets_of_forall (Q := fun _ => true) fun _ _ => rfl)
  intro s s' kept command answer _ _ hperform
  exact ⟨trivial, hstep hperform⟩

theorem invariant_of_meets {I : Session → σ → Prop}
    (hstep : ∀ {s s' kept command answer}, I s kept → P s kept command = true →
      s.Performs command answer s' → I s' (after s kept command))
    {commands : List Command} {s : Session} {kept : σ} (h : I s kept)
    (hmeets : s.meets after P kept commands = true) :
    I (s.run commands).2 (s.follow after kept commands) :=
  invariant_of_meets_ok (fun h hcommand hperform => hstep h hcommand (performs_of_ok hperform)) h
    hmeets

/-- What every command that succeeds preserves holds after a run. -/
theorem follow_invariant {I : Session → σ → Prop}
    (hstep : ∀ {s s' kept command answer}, I s kept →
      s.perform command = .ok (answer, s') → I s' (after s kept command))
    {s : Session} {kept : σ} (h : I s kept) (commands : List Command) :
    I (s.run commands).2 (s.follow after kept commands) :=
  invariant_of_meets_ok (P := fun _ _ _ => true) (fun h _ hperform => hstep h hperform) h
    (meets_of_forall (Q := fun _ => true) fun _ _ => rfl)

/-- What every command of a kind keeps of a session holds after a run of such commands. -/
theorem run_keeps_of_forall {Q : Command → Bool} (I : Session → Prop)
    (hstep : ∀ {s s' command answer}, I s → Q command = true →
      s.Performs command answer s' → I s')
    {s : Session} (h : I s) {commands : List Command}
    (hcommands : ∀ command ∈ commands, Q command = true) : I (s.run commands).2 :=
  @invariant_of_meets Unit (fun _ _ _ => ()) (fun _ _ command => Q command) (fun s _ => I s)
    (fun h hcommand hperform => hstep h hcommand hperform) commands s () h
    (meets_of_forall hcommands)

/-- What every command keeps of a session holds after a run. -/
theorem run_keeps (I : Session → Prop)
    (hstep : ∀ {s s' command answer}, I s → s.Performs command answer s' → I s')
    {s : Session} (h : I s) (commands : List Command) : I (s.run commands).2 :=
  run_keeps_of_forall (Q := fun _ => true) I (fun h _ hperform => hstep h hperform) h
    fun _ _ => rfl

theorem indexed_run_of_indexed {s : Session} (h : s.module.graph.Indexed)
    (commands : List Command) : (s.run commands).2.module.graph.Indexed :=
  run_keeps (fun s => s.module.graph.Indexed) (fun h hperform => hperform.grows.indexed h) h
    commands

/-- The index of the graph is right after every run. -/
theorem indexed_run (commands : List Command) (workingDirectory : List UInt8) (name : String) :
    ((start workingDirectory name).run commands).2.module.graph.Indexed :=
  indexed_run_of_indexed Graph.indexed_empty commands

end Session

end DebugMetadata

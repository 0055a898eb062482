import DebugMetadata.Proofs.Chronicle.Turns

/-!
# The log of a run

A chronicle is kept beside a run and has a turn for every command that succeeded.  The log of
the session is the events that are due for its turns, in order, and the lines that tagged
recorders report as marked are those of the markers that they have emitted.
-/

namespace DebugMetadata

/-- The commands that succeeded in a run of some commands with some answers. -/
def Command.succeeded (commands : List Command) (answers : List (Except Fault Answer)) :
    List Command :=
  (commands.zip answers).filterMap fun (command, answer) =>
    match answer with
    | .ok _ => some command
    | .error _ => none

/-- What a run tells of the commands that succeeded. -/
structure Chronicle where
  ledger : Ledger := {}
  /-- How many subprograms the sequence of each recorder has. -/
  tallies : Array Nat := #[]
  turns : List Turn := []

theorem Module.HasMarker.mono {m m' : Module} {id : InstrId} {line : Nat}
    (h : m.HasMarker id line) (hgrows : m.Grows m') : m'.HasMarker id line := by
  obtain ⟨i, hi, hmarker⟩ := h
  obtain ⟨i', hi', hstays⟩ := hgrows.instruction? hi
  exact ⟨i', hi', hstays.operation.symm.trans hmarker⟩

/-- The command of the turn returned, the tallies count the sequences of the recorders that it
was given to, and it has an event exactly if one is due. -/
structure Turn.Happened (t : Turn) : Prop where
  returned : ∃ answer, t.before.perform t.command = .ok (answer, t.after)
  tallies : ∀ (n : Nat) (slot : RecorderSlot), t.before.recorders[n]? = some slot →
    t.tallies[n]? = some (slot.recorder.subprograms t.before.module.graph).length
  due : t.event?.isSome = t.isDue

/-- The turns tell what is in the log of a session and which instructions its module has, and
the lines that tagged recorders report as marked are those of the markers that they emit. -/
structure Session.IsToldBy (s : Session) (turns : List Turn) : Prop where
  happened : ∀ t ∈ turns, t.Happened
  log : s.log.toList = turns.filterMap Turn.event?
  emitted : turns.flatMap Turn.emitted = s.module.instrIds
  markers : ∀ which, List.Forall₂ s.module.HasMarker (turns.flatMap (Turn.markers which))
    (turns.filterMap (Turn.markedLine? which))

namespace Session

variable {s s' : Session} {ledger : Ledger} {tallies : Array Nat} {command : Command}
  {answer : Answer}

/-- The chronicle after a command that succeeds. -/
def chronicleAfter (s : Session) (chronicle : Chronicle) (command : Command) : Chronicle :=
  match s.perform command with
  | .ok (_, s') =>
    { ledger := s.ledgerAfter chronicle.ledger command
      tallies := s.talliesAfter chronicle.ledger chronicle.tallies command
      turns := chronicle.turns ++ [⟨s, chronicle.tallies, command, s'⟩] }
  | .error _ => chronicle

/-- The turns of a run from the start. -/
def turns (workingDirectory : List UInt8) (name : String) (commands : List Command) : List Turn :=
  ((start workingDirectory name).follow chronicleAfter {} commands).turns

theorem chronicleAfter_of_ok (h : s.perform command = .ok (answer, s')) (chronicle : Chronicle) :
    s.chronicleAfter chronicle command =
      { ledger := s.ledgerAfter chronicle.ledger command
        tallies := s.talliesAfter chronicle.ledger chronicle.tallies command
        turns := chronicle.turns ++ [⟨s, chronicle.tallies, command, s'⟩] } := by
  rw [chronicleAfter, h]

/-- The chronicle has a turn for every command that succeeded, in order. -/
theorem turns_follow {commands : List Command} : ∀ {s : Session} {chronicle : Chronicle},
    (s.follow chronicleAfter chronicle commands).turns.map Turn.command =
      chronicle.turns.map Turn.command ++ Command.succeeded commands (s.run commands).1 := by
  induction commands with
  | nil =>
      intro s chronicle
      exact (List.append_nil _).symm
  | cons command rest ih =>
      intro s chronicle
      cases hperform : s.perform command with
      | ok result =>
          obtain ⟨answer, s'⟩ := result
          rw [follow_cons hperform, run_cons_eq hperform, ih, chronicleAfter_of_ok hperform,
            List.map_append, List.append_assoc]
          rfl
      | error fault =>
          by_cases hfault : fault = .dangling
          · rw [hfault] at hperform
            rw [follow, run, hperform]
            simp [Command.succeeded]
          · rw [follow_cons_of_error hperform hfault, run_cons_eq_of_error hperform hfault, ih]
            rfl

/-! ## What the turns tell -/

/-- The instructions that a session has and those that a later one has besides. -/
theorem instrIds_append_newInstrs (h : s.module.Grows s'.module) :
    s.module.instrIds ++ s.newInstrs s' = s'.module.instrIds := by
  have htake : s'.module.instrIds.take s.module.instructions.size = s.module.instrIds := by
    rw [Module.instrIds, Module.instrIds, ← List.map_take, List.take_range,
      Nat.min_eq_left h.instructions_size_le]
  rw [newInstrs, ← htake]
  exact List.take_append_drop _ _

namespace IsToldBy

theorem start (workingDirectory : List UInt8) (name : String) :
    IsToldBy (.start workingDirectory name) [] where
  happened _ h := by cases h
  log := rfl
  emitted := rfl
  markers _ := .nil

theorem step {turns : List Turn} (h : s.IsToldBy turns) (hcounts : s.Counts ledger tallies)
    (hok : s.perform command = .ok (answer, s')) :
    s'.IsToldBy (turns ++ [⟨s, tallies, command, s'⟩]) := by
  have hperform := performs_of_ok hok
  have hgrows := hperform.steps.grows
  constructor
  case happened =>
    intro t ht
    rcases List.mem_append.mp ht with ht | ht
    · exact h.happened t ht
    · cases List.mem_singleton.mp ht
      exact ⟨⟨answer, hok⟩, fun n slot hslot => hcounts.length n _ (hasRecorder_of_slot hslot),
        hperform.isSome_event? tallies⟩
  case log =>
    rw [hperform.log_eq hcounts, h.log, List.filterMap_append]
    rfl
  case emitted =>
    rw [List.flatMap_append, List.flatMap_singleton, h.emitted]
    exact instrIds_append_newInstrs hgrows
  case markers =>
    intro which
    have hkept := (h.markers which).imp fun _ _ hmarker => hmarker.mono hgrows
    have hnew := hperform.forall₂_hasMarker tallies which
    rw [List.flatMap_append, List.flatMap_singleton, List.filterMap_append]
    exact List.rel_append hkept hnew

end IsToldBy

/-- The chronicle tells of the session what it is kept for. -/
def IsKeptBy (s : Session) (chronicle : Chronicle) : Prop :=
  s.Counts chronicle.ledger chronicle.tallies ∧ s.IsToldBy chronicle.turns

theorem IsKeptBy.step {chronicle : Chronicle} (h : s.IsKeptBy chronicle)
    (hok : s.perform command = .ok (answer, s')) :
    s'.IsKeptBy (s.chronicleAfter chronicle command) := by
  obtain ⟨hcounts, htold⟩ := h
  rw [chronicleAfter_of_ok hok]
  exact ⟨hcounts.step (performs_of_ok hok), htold.step hcounts hok⟩

/-- After every run the log is the events that are due for the commands that succeeded, in
order, and tagged recorders have emitted as many markers as they report lines as marked, of
these lines and in this order. -/
theorem log_tells_run (workingDirectory : List UInt8) (name : String) (commands : List Command) :
    let s := ((start workingDirectory name).run commands).2
    let turns := turns workingDirectory name commands
    turns.map Turn.command =
      Command.succeeded commands ((start workingDirectory name).run commands).1 ∧
    s.IsToldBy turns ∧
    ∀ which, (turns.filterMap (Turn.markedLine? which)).length =
      (turns.flatMap (Turn.markers which)).length := by
  have hstart : IsKeptBy (.start workingDirectory name) {} :=
    ⟨.start workingDirectory name, .start workingDirectory name⟩
  obtain ⟨-, htold⟩ := follow_invariant (fun h hok => h.step hok) hstart commands
  exact ⟨turns_follow, htold, fun which => (htold.markers which).length_eq.symm⟩

end Session

end DebugMetadata

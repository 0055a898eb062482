import DebugMetadata.Proofs.Chronicle.Sequences
import DebugMetadata.Proofs.Cursors.Locations
import DebugMetadata.Proofs.Permanence.Arenas
import DebugMetadata.Proofs.Source.Spellings

/-!
# What is reported of a command

The event that is due for a command that succeeds can be told from the session before and
after it.  Nothing is due for a recorder that is off.  A tagged recorder reports a line as
skipped exactly if it emitted nothing for it.
-/

namespace DebugMetadata

/-- The instruction is the marker of a line. -/
def Module.HasMarker (m : Module) (id : InstrId) (line : Nat) : Prop :=
  ∃ i, m.instruction? id = some i ∧ i.operation = TaggedRecorder.marker line

/-- The line that an event reports as marked. -/
def Event.markedLine? : Event → Option Nat
  | .markedLocation line => some line
  | _ => none

/-- A command that succeeded. -/
structure Turn where
  before : Session
  /-- How many subprograms the sequence of each recorder had before the command. -/
  tallies : Array Nat
  command : Command
  after : Session

namespace Turn

/-- The instructions that the command emitted. -/
def emitted (t : Turn) : List InstrId := t.before.newInstrs t.after

/-- Whether an event is due for the command: it made a recorder that is on, told one of a
function or a line, or finalized it. -/
def isDue (t : Turn) : Bool :=
  match t.command with
  | .createRecorder choice settings _ => (choice.schema settings).isSome
  | .recorder n (.markSubprogram _ _ _) | .recorder n (.markLocation _ _)
  | .recorder n .finalize => (t.before.schema? n).isSome
  | _ => false

/-- The event that is due for the command. -/
def event? (t : Turn) : Option Event :=
  match t.command with
  | .createRecorder _ _ _ => do
    let slot ← t.after.recorders[t.before.recorders.size]?
    let schema ← slot.recorder.schema?
    let source ← slot.recorder.source?
    return .created schema source
  | .recorder n (.markSubprogram function name line) => do
    let _ ← t.before.schema? n
    let f ← t.before.module.function? function
    return .markedSubprogram name f.name line
  | .recorder n (.markLocation _ line) =>
    (t.before.schema? n).map fun schema =>
      match schema, t.emitted with
      | .legacy, [] => .skippedLine line
      | _, _ => .markedLocation line
  | .recorder n .finalize =>
    (t.before.schema? n).map fun schema => .finalized schema (t.tallies.getD n 0)
  | _ => none

/-- The instructions that the command emitted, if it was given to one of some recorders. -/
def markers (which : Nat → Bool) (t : Turn) : List InstrId :=
  match t.command with
  | .recorder n _ => if which n then t.emitted else []
  | _ => []

/-- The line that is reported as marked, if the command was given to one of some recorders and
that is a tagged one. -/
def markedLine? (which : Nat → Bool) (t : Turn) : Option Nat :=
  match t.command with
  | .recorder n _ =>
    if which n ∧ t.before.schema? n = some .legacy then t.event?.bind Event.markedLine? else none
  | _ => none

end Turn

namespace Recorder

variable {r r' : Recorder} {m m' : Module} {function : FunctionId} {name : String} {line : Nat}
  {event : Option Event} {schema : Option Schema} {settings : Settings}
  {workingDirectory path : List UInt8}

theorem event_create (h : create schema settings workingDirectory path m = .ok (r, m', event)) :
    event = (do return .created (← r.schema?) (← r.source?)) ∧ event.isSome = schema.isSome := by
  rcases create_cases h with ⟨rfl, rfl, -, rfl⟩ | ⟨source, rfl, -, rfl, -, rfl⟩ |
    ⟨source, rfl, -, rfl, -, rfl⟩
  · exact ⟨rfl, rfl⟩
  · rw [source?, TypedRecorder.source_create]
    exact ⟨rfl, rfl⟩
  · rw [source?, TaggedRecorder.source_create]
    exact ⟨rfl, rfl⟩

theorem event_markSubprogram
    (h : r.markSubprogram m function name line = .ok (r', m', event)) :
    (event = do
      let _ ← r.schema?
      let f ← m.function? function
      return .markedSubprogram name f.name line) ∧ event.isSome = r.schema?.isSome := by
  rcases markSubprogram_cases h with ⟨rfl, -, -, rfl⟩ | ⟨t, f, rfl, hf, -, -, rfl⟩ |
    ⟨t, f, rfl, hf, -, -, rfl⟩
  · exact ⟨rfl, rfl⟩
  · rw [hf]
    exact ⟨rfl, rfl⟩
  · rw [hf]
    exact ⟨rfl, rfl⟩

theorem event_finalize (r : Recorder) (m : Module) :
    (r.finalize m).2 =
      r.schema?.map fun schema => .finalized schema (r.subprograms m.graph).length := by
  cases r with
  | off => rfl
  | typed t => simp [finalize, TypedRecorder.finalize, schema?, subprograms]
  | tagged t =>
      have hevent : (t.finalize m).2 =
          .finalized .legacy (((t.finalGraph m.graph).list? t.subprograms).elim 0 Array.size) := by
        simp only [TaggedRecorder.finalize, TaggedRecorder.finalGraph]
      have hlist : (t.finalGraph m.graph).list? t.subprograms =
          m.graph.list? t.subprograms := by
        rw [Graph.list?, t.lists_finalGraph, Graph.list?]
      have hsize : ((m.graph.list? t.subprograms).elim 0 Array.size) =
          ((m.graph.list? t.subprograms).getD #[]).toList.length := by
        cases m.graph.list? t.subprograms <;> rfl
      rw [subprograms, ← hsize, ← hlist]
      exact congrArg some hevent

end Recorder

namespace Session

variable {s s' : Session} {ledger : Ledger} {tallies : Array Nat} {command : Command}
  {answer : Answer} {event : Option Event}

theorem toList_report (s : Session) (event : Option Event) :
    (s.report event).log.toList = s.log.toList ++ event.toList := by
  cases event <;> simp [report]

theorem newInstrs_of_instructions_eq (h : s'.module.instructions = s.module.instructions) :
    s.newInstrs s' = [] :=
  newInstrs_of_spots_eq (Module.spots_eq_of_instructions_eq h)

theorem newInstrs_of_graph {graph : Graph} (h : s'.module = { s.module with graph }) :
    s.newInstrs s' = [] :=
  newInstrs_of_instructions_eq (by rw [h])

theorem event_createRecorder {choice : RecorderChoice} {settings : Settings} {path : List UInt8}
    {r : Recorder} {m : Module}
    (hcreate : Recorder.create (choice.schema settings) settings s.workingDirectory path s.module =
      .ok (r, m, event))
    (hrecorders : s'.recorders = s.recorders.push ⟨choice, r⟩) (tallies : Array Nat) :
    Turn.event? ⟨s, tallies, .createRecorder choice settings path, s'⟩ = event := by
  have hslot : s'.recorders[s.recorders.size]? = some ⟨choice, r⟩ := by
    rw [hrecorders]
    exact Array.getElem?_push_size
  rw [(Recorder.event_create hcreate).1, Turn.event?]
  dsimp only
  rw [hslot]
  rfl

theorem event_markSubprogram {n line : Nat} {slot : RecorderSlot} {function : FunctionId}
    {name : String} {r : Recorder} {m : Module} (hslot : s.recorders[n]? = some slot)
    (hmark : slot.recorder.markSubprogram s.module function name line = .ok (r, m, event))
    (tallies : Array Nat) (s' : Session) :
    Turn.event? ⟨s, tallies, .recorder n (.markSubprogram function name line), s'⟩ = event := by
  rw [(Recorder.event_markSubprogram hmark).1, Turn.event?]
  dsimp only
  rw [(hasRecorder_of_slot hslot).schema?_eq]

/-- A line is skipped exactly if the recorder is a tagged one and emits nothing. -/
theorem event_markLocation {n k line : Nat} {slot : RecorderSlot} {c c' : Cursor} {r : Recorder}
    (hslot : s.recorders[n]? = some slot)
    (hmark : slot.recorder.markLocation s.module c line = .ok (r, c', s'.module, event))
    (tallies : Array Nat) :
    Turn.event? ⟨s, tallies, .recorder n (.markLocation k line), s'⟩ = event := by
  rw [Turn.event?]
  dsimp only
  rw [(hasRecorder_of_slot hslot).schema?_eq]
  rcases Recorder.markLocation_cases hmark with
    ⟨hr, -, -, -, rfl⟩ | ⟨t, scope, hr, -, -, -, -, rfl⟩ | ⟨t, hr, -, -, -, hm, rfl⟩ |
    ⟨t, scope, hr, -, -, -, -, -, hm, rfl⟩
  · rw [hr]
    rfl
  · rw [hr]
    rfl
  · rw [hr, Turn.emitted, newInstrs_of_graph hm]
    rfl
  · have hspots : s'.module.spots = s.module.spots ++ _ :=
      (congrArg Module.spots hm).trans (Module.spots_pushInstruction _ _)
    rw [hr, Turn.emitted, newInstrs_of_spots_concat hspots]
    rfl

theorem event_finalize {n : Nat} {slot : RecorderSlot} (hslot : s.recorders[n]? = some slot)
    (htally : tallies[n]? = some (slot.recorder.subprograms s.module.graph).length)
    (s' : Session) :
    Turn.event? ⟨s, tallies, .recorder n .finalize, s'⟩ =
      (slot.recorder.finalize s.module).2 := by
  rw [Recorder.event_finalize, Turn.event?]
  dsimp only
  rw [(hasRecorder_of_slot hslot).schema?_eq, Array.getD_eq_getD_getElem?, htally]
  rfl

/-- A command that succeeds appends the event that is due for it to the log. -/
theorem Performs.log_eq (h : s.Performs command answer s') (hcounts : s.Counts ledger tallies) :
    s'.log.toList = s.log.toList ++ (Turn.event? ⟨s, tallies, command, s'⟩).toList := by
  cases h with
  | createRecorder choice settings path hcreate =>
      rw [event_createRecorder hcreate rfl, toList_report]
  | markSubprogram function name line hslot hmark =>
      rw [event_markSubprogram hslot hmark, toList_report]
      rfl
  | markLocation line hslot hc hmark =>
      rw [event_markLocation hslot hmark, toList_report]
      rfl
  | finalize hslot =>
      rw [event_finalize hslot (hcounts.length _ _ (hasRecorder_of_slot hslot)), toList_report]
  | _ => exact (List.append_nil _).symm

/-- An event is reported exactly if one is due. -/
theorem Performs.isSome_event? (h : s.Performs command answer s') (tallies : Array Nat) :
    (Turn.event? ⟨s, tallies, command, s'⟩).isSome = Turn.isDue ⟨s, tallies, command, s'⟩ := by
  cases h with
  | createRecorder choice settings path hcreate =>
      rw [event_createRecorder hcreate rfl]
      exact (Recorder.event_create hcreate).2
  | markSubprogram function name line hslot hmark =>
      rw [event_markSubprogram hslot hmark, (Recorder.event_markSubprogram hmark).2, Turn.isDue]
      dsimp only
      rw [(hasRecorder_of_slot hslot).schema?_eq]
  | @markLocation n => exact Option.isSome_map
  | @finalize n => exact Option.isSome_map
  | _ => rfl

/-! ## Markers -/

/-- What a recorder emits when it is told something, and what a tagged one reports: nothing
and no line as marked, or the marker of the line that it reports. -/
inductive Marks (s s' : Session) (schema : Option Schema) (event : Option Event) : Prop where
  | nothing (hemitted : s.newInstrs s' = [])
      (hevent : schema = some .legacy → event.bind Event.markedLine? = none)
  | marker {line : Nat} (hemitted : s.newInstrs s' = [⟨s.module.instructions.size⟩])
      (hschema : schema = some .legacy) (hevent : event = some (.markedLocation line))
      (hmarker : s'.module.HasMarker ⟨s.module.instructions.size⟩ line)

private theorem marks_markLocation {line : Nat} {c c' : Cursor} {r r' : Recorder}
    (hmark : r.markLocation s.module c line = .ok (r', c', s'.module, event)) :
    Marks s s' r.schema? event := by
  rcases Recorder.markLocation_cases hmark with
    ⟨rfl, -, -, hm, -⟩ | ⟨t, scope, rfl, -, -, -, hm, -⟩ | ⟨t, rfl, -, -, -, hm, rfl⟩ |
    ⟨t, scope, rfl, -, -, -, -, -, hm, rfl⟩
  · exact .nothing (newInstrs_of_graph hm) nofun
  · exact .nothing (newInstrs_of_graph hm) nofun
  · exact .nothing (newInstrs_of_graph hm) fun _ => rfl
  · have hspots : s'.module.spots = s.module.spots ++ _ :=
      (congrArg Module.spots hm).trans (Module.spots_pushInstruction _ _)
    refine .marker (newInstrs_of_spots_concat hspots) rfl rfl ?_
    rw [hm]
    exact ⟨_, Module.instruction?_pushInstruction_size _ _, rfl⟩

theorem Performs.marks {n : Nat} {told : RecorderCommand}
    (h : s.Performs (.recorder n told) answer s') (tallies : Array Nat) :
    Marks s s' (s.schema? n) (Turn.event? ⟨s, tallies, .recorder n told, s'⟩) := by
  cases h with
  | clone hslot hexposed => exact .nothing (newInstrs_of_instructions_eq rfl) fun _ => rfl
  | markSubprogram function name line hslot hmark =>
      refine .nothing (newInstrs_of_instructions_eq (Recorder.instructions_markSubprogram hmark))
        fun hschema => ?_
      rw [Turn.event?]
      dsimp only
      rw [hschema]
      cases s.module.function? function <;> rfl
  | markLocation line hslot hc hmark =>
      rw [(hasRecorder_of_slot hslot).schema?_eq, event_markLocation hslot hmark]
      exact marks_markLocation hmark
  | finalize hslot =>
      refine .nothing (newInstrs_of_graph (Recorder.module_finalize _ _)) fun hschema => ?_
      rw [Turn.event?]
      dsimp only
      rw [hschema]
      rfl
  | addSubprogram name linkageName line hslot hexposed hadd =>
      exact .nothing (newInstrs_of_graph (Recorder.module_addSubprogram? hadd)) fun _ => rfl
  | addLocation line hslot hexposed hadd =>
      exact .nothing (newInstrs_of_graph (Recorder.module_addLocation? hadd)) fun _ => rfl

/-- What tagged recorders emit is the marker of the line that they report as marked, and other
recorders emit nothing. -/
theorem Performs.forall₂_hasMarker (h : s.Performs command answer s') (tallies : Array Nat)
    (which : Nat → Bool) :
    List.Forall₂ s'.module.HasMarker (Turn.markers which ⟨s, tallies, command, s'⟩)
      (Turn.markedLine? which ⟨s, tallies, command, s'⟩).toList := by
  cases command with
  | recorder n told =>
      rw [Turn.markers, Turn.markedLine?]
      dsimp only
      cases hwhich : which n with
      | false =>
          rw [if_neg (by simp), if_neg (by simp)]
          exact .nil
      | true =>
          rw [if_pos rfl, Turn.emitted]
          cases h.marks tallies with
          | nothing hemitted hevent =>
              rw [hemitted]
              split
              next hschema =>
                rw [hevent hschema.2]
                exact .nil
              next => exact .nil
          | marker hemitted hschema hevent hmarker =>
              rw [hemitted, if_pos ⟨rfl, hschema⟩, hevent]
              exact .cons hmarker .nil
  | _ => exact .nil

end Session

end DebugMetadata

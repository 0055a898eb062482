import DebugMetadata.Proofs.Arenas.Consistency
import DebugMetadata.Proofs.Isolation.Recorders
import DebugMetadata.Proofs.Scopes.Typed

/-!
# Cursors and what they emit

A log that is kept beside a run tells what happened at each cursor.  An instruction has the
location that was set last at its own cursor before the instruction was emitted, and it
stands in the block in which the cursor was then.  What happens at other cursors, what other
recorders do and what happens later has no part in it.
-/

namespace DebugMetadata

variable {α : Type}

/-- What happens at a cursor. -/
inductive CursorEvent where
  | opened (block : BlockId)
  | moved (block : BlockId)
  /-- The location is set, or unset. -/
  | located (location : Option NodeId)
  | emitted (id : InstrId)
  deriving DecidableEq, Repr

namespace CursorEvent

/-- The location that the event sets, if it sets one.  A cursor is opened without any. -/
def location? : CursorEvent → Option (Option NodeId)
  | .opened _ => some none
  | .located location => some location
  | .moved _ | .emitted _ => none

/-- The block that the event puts the cursor in, if it puts it anywhere. -/
def block? : CursorEvent → Option BlockId
  | .opened block | .moved block => some block
  | .located _ | .emitted _ => none

def instr? : CursorEvent → Option InstrId
  | .emitted id => some id
  | _ => none

end CursorEvent

/-- What happened at the cursors, in order, each event with the number of its cursor. -/
abbrev CursorLog := List (Nat × CursorEvent)

namespace CursorLog

/-- What was set last by the events at a cursor that set something. -/
def last? (log : CursorLog) (n : Nat) (f : CursorEvent → Option α) : Option α :=
  (log.filterMap fun entry => if entry.1 = n then f entry.2 else none).getLast?

def instrs (log : CursorLog) : List InstrId := log.filterMap (·.2.instr?)

end CursorLog

namespace Session

/-- The instructions of the second session that the first one did not have. -/
def newInstrs (s s' : Session) : List InstrId :=
  s'.module.instrIds.drop s.module.instructions.size

/-- The location that a recorder has for a line. -/
def lineLocation? (s : Session) (n line : Nat) : Option NodeId := do
  let slot ← s.recorders[n]?
  slot.recorder.newLocation? s.module line

/-- What a command that leads from a session to another does at the cursors.  Of the marks of
a line, only one by a typed recorder sets a location. -/
def cursorEvents (s : Session) (command : Command) (answer : Answer) (s' : Session) : CursorLog :=
  match command, answer with
  | .openCursor block, .cursor n => [(n, .opened block)]
  | .cursor n (.moveTo block), _ => [(n, .moved block)]
  | .cursor n (.locate location), _ => [(n, .located location)]
  | .cursor n (.emit _), .instr id => [(n, .emitted id)]
  | .recorder k (.markLocation n line), _ =>
    (if s.isTyped k then [(n, .located (s.lineLocation? k line))] else []) ++
      (s.newInstrs s').map fun id => (n, .emitted id)
  | _, _ => []

/-- The log of the cursors after a command that succeeds. -/
def cursorLogAfter (s : Session) (log : CursorLog) (command : Command) : CursorLog :=
  match s.perform command with
  | .ok (answer, s') => log ++ s.cursorEvents command answer s'
  | .error _ => log

end Session

/-- The log tells that an instruction was emitted, and of its cursor which location was set
last before and in which block it was put last. -/
def CursorLog.EmittedAt (log : CursorLog) (id : InstrId) (location : Option NodeId)
    (block : BlockId) : Prop :=
  ∃ (n : Nat) (before after : CursorLog), log = before ++ (n, .emitted id) :: after ∧
    before.last? n CursorEvent.location? = some location ∧
    before.last? n CursorEvent.block? = some block

/-- The log explains the cursors and the instructions of a session. -/
structure CursorLog.Explains (log : CursorLog) (s : Session) : Prop where
  cursors : ∀ n c, s.cursors[n]? = some c →
    log.last? n CursorEvent.location? = some c.location ∧
      log.last? n CursorEvent.block? = some c.block
  /-- All instructions were emitted at cursors, one after another. -/
  instrs : log.instrs = s.module.instrIds
  emitted : ∀ id i, s.module.instruction? id = some i → log.EmittedAt id i.location i.block
  /-- An instruction is listed in the block where it was emitted and in no other one. -/
  listed : ∀ id i block, s.module.instruction? id = some i →
    (id ∈ s.module.blockInstrs block ↔ i.block = block)

/-! ## Logs -/

namespace CursorLog

variable {log : CursorLog} {n k : Nat} {event : CursorEvent} {f : CursorEvent → Option α}

theorem last?_concat (log : CursorLog) (k : Nat) (event : CursorEvent) (n : Nat)
    (f : CursorEvent → Option α) :
    last? (log ++ [(k, event)]) n f =
      if k = n then (f event).or (log.last? n f) else log.last? n f := by
  rw [last?, List.filterMap_append, List.getLast?_append]
  by_cases hn : k = n
  · cases h : f event <;> simp [hn, h, last?]
  · simp [hn, last?]

theorem last?_concat_of_ne (h : k ≠ n) (event : CursorEvent) :
    last? (log ++ [(k, event)]) n f = log.last? n f := by
  rw [last?_concat, if_neg h]

/-- An event that sets nothing leaves what was set last. -/
theorem last?_concat_of_none (log : CursorLog) (k n : Nat) (h : f event = none) :
    last? (log ++ [(k, event)]) n f = log.last? n f := by
  rw [last?_concat, h]
  exact ite_self _

theorem instrs_append (log log' : CursorLog) : instrs (log ++ log') = log.instrs ++ log'.instrs :=
  List.filterMap_append

/-- What happens later does not change what an instruction was emitted with. -/
theorem EmittedAt.append {id : InstrId} {location : Option NodeId} {block : BlockId}
    (h : log.EmittedAt id location block) (events : CursorLog) :
    EmittedAt (log ++ events) id location block := by
  obtain ⟨n, before, after, rfl, hlocation, hblock⟩ := h
  exact ⟨n, before, after ++ events, List.append_assoc _ _ _, hlocation, hblock⟩

end CursorLog

/-- What the event does to its cursor. -/
def CursorEvent.apply (c : Cursor) : CursorEvent → Cursor
  | .opened block => { block }
  | .moved block => c.moveTo block
  | .located location => c.locate location
  | .emitted _ => c

theorem CursorEvent.or_location? (event : CursorEvent) (c : Cursor) :
    event.location?.or (some c.location) = some (event.apply c).location := by
  cases event <;> rfl

theorem CursorEvent.or_block? (event : CursorEvent) (c : Cursor) :
    event.block?.or (some c.block) = some (event.apply c).block := by
  cases event <;> rfl

/-! ## Spots -/

/-- The location and the block of every instruction. -/
def Module.spots (m : Module) : List (Option NodeId × BlockId) :=
  m.instructions.toList.map fun i => (i.location, i.block)

namespace Module

variable {m m' : Module}

theorem spots_eq_of_instructions_eq (h : m'.instructions = m.instructions) :
    m'.spots = m.spots := by
  rw [spots, spots, h]

theorem spots_pushInstruction (m : Module) (i : Instruction) :
    (m.pushInstruction i).spots = m.spots ++ [(i.location, i.block)] := by
  simp [spots, pushInstruction]

theorem spots_attachToInstruction (m : Module) (id : InstrId) (key : String) (node : NodeId) :
    (m.attachToInstruction id key node).spots = m.spots :=
  toList_map_modify _ _ fun _ => rfl

theorem length_spots (m : Module) : m.spots.length = m.instructions.size := by
  simp [spots]

theorem getElem?_spots (m : Module) (id : InstrId) :
    m.spots[id.index]? = (m.instruction? id).map fun i => (i.location, i.block) := by
  rw [spots, List.getElem?_map, Array.getElem?_toList]
  rfl

theorem instrIds_eq_of_spots (m : Module) :
    m.instrIds = (List.range m.spots.length).map InstrId.mk := by
  rw [length_spots, instrIds]

end Module

/-! ## Steps -/

namespace Session

variable {s s' : Session} {command : Command} {answer : Answer} {log events : CursorLog}

/-- What a command does to the cursors and to the spots of the instructions, with the events
that tell of it. -/
inductive CursorStep (s s' : Session) : CursorLog → Prop where
  | silent (hcursors : s'.cursors = s.cursors) (hspots : s'.module.spots = s.module.spots) :
    CursorStep s s' []
  | opened (block : BlockId) (hcursors : s'.cursors = s.cursors.push { block })
      (hspots : s'.module.spots = s.module.spots) :
    CursorStep s s' [(s.cursors.size, .opened block)]
  | told {n : Nat} {c : Cursor} {event : CursorEvent} (hc : s.cursors[n]? = some c)
      (hevent : event.instr? = none)
      (hcursors : s'.cursors = s.cursors.modify n fun _ => event.apply c)
      (hspots : s'.module.spots = s.module.spots) :
    CursorStep s s' [(n, event)]
  | emitted {n : Nat} {c : Cursor} (hc : s.cursors[n]? = some c)
      (hcursors : s'.cursors = s.cursors)
      (hspots : s'.module.spots = s.module.spots ++ [(c.location, c.block)]) :
    CursorStep s s' [(n, .emitted ⟨s.module.instructions.size⟩)]

theorem isTyped_eq {n : Nat} {slot : RecorderSlot} (h : s.recorders[n]? = some slot) :
    s.isTyped n = slot.recorder.isTyped := by
  rw [isTyped, h]
  rfl

theorem newInstrs_of_spots_eq (h : s'.module.spots = s.module.spots) : s.newInstrs s' = [] := by
  rw [newInstrs, Module.instrIds_eq_of_spots, h, ← Module.instrIds_eq_of_spots]
  exact List.drop_of_length_le (by simp [Module.instrIds])

theorem newInstrs_of_spots_concat {spot : Option NodeId × BlockId}
    (h : s'.module.spots = s.module.spots ++ [spot]) :
    s.newInstrs s' = [⟨s.module.instructions.size⟩] := by
  rw [newInstrs, Module.instrIds_eq_of_spots, h, List.length_append, Module.length_spots,
    List.length_singleton, List.range_succ, List.map_append]
  exact List.drop_left' (by simp)

/-- The mark of a line, by the form of its recorder. -/
private theorem cursorStep_markLocation {n k line : Nat} {slot : RecorderSlot} {c c' : Cursor}
    {r : Recorder} {event : Option Event} (hslot : s.recorders[n]? = some slot)
    (hc : s.cursors[k]? = some c)
    (hmark : slot.recorder.markLocation s.module c line = .ok (r, c', s'.module, event))
    (hcursors : s'.cursors = s.cursors.modify k fun _ => c') :
    CursorStep s s' (s.cursorEvents (.recorder n (.markLocation k line)) answer s') := by
  change CursorStep s s' ((if s.isTyped n then _ else _) ++ _)
  rw [isTyped_eq hslot]
  rcases Recorder.markLocation_cases hmark with ⟨hr, -, rfl, hm, -⟩ |
    ⟨t, scope, hr, hactive, -, rfl, hm, -⟩ | ⟨t, hr, -, -, rfl, hm, -⟩ |
    ⟨t, scope, hr, -, -, -, -, hc', hm, -⟩
  · have hspots : s'.module.spots = s.module.spots := congrArg Module.spots hm
    rw [hr, newInstrs_of_spots_eq hspots]
    exact .silent (hcursors.trans (cursors_modify_self hc)) hspots
  · have hspots : s'.module.spots = s.module.spots := by
      rw [hm]
      rfl
    have hline : s.lineLocation? n line =
        some (s.module.graph.addDebug (TypedRecorder.locationNode line scope) false).1 := by
      rw [lineLocation?, hslot]
      change slot.recorder.newLocation? s.module line = _
      rw [hr, Recorder.newLocation?_typed hactive]
    rw [hr, newInstrs_of_spots_eq hspots, hline]
    exact .told hc rfl hcursors hspots
  · have hspots : s'.module.spots = s.module.spots := congrArg Module.spots hm
    rw [hr, newInstrs_of_spots_eq hspots]
    exact .silent (hcursors.trans (cursors_modify_self hc)) hspots
  · have hspots : s'.module.spots = s.module.spots ++ [(c.location, c.block)] := by
      rw [hm, Module.spots_pushInstruction]
      rfl
    rw [hc', cursors_modify_self hc] at hcursors
    rw [hr, newInstrs_of_spots_concat hspots]
    exact .emitted hc hcursors hspots

theorem Performs.cursorStep (h : s.Performs command answer s') :
    CursorStep s s' (s.cursorEvents command answer s') := by
  cases h with
  | openCursor block => exact .opened block rfl rfl
  | moveTo block hc => exact .told hc rfl rfl rfl
  | locate location hc => exact .told hc rfl rfl rfl
  | emit operation hc hblock => exact .emitted hc rfl (Module.spots_pushInstruction _ _)
  | attachToInstruction key node hi =>
      exact .silent rfl (Module.spots_attachToInstruction _ _ _ _)
  | createRecorder choice settings path hcreate =>
      refine .silent rfl ?_
      rw [report, Recorder.module_create hcreate]
      rfl
  | markSubprogram function name line hslot hmark =>
      exact .silent rfl
        (Module.spots_eq_of_instructions_eq (Recorder.instructions_markSubprogram hmark))
  | markLocation line hslot hc hmark => exact cursorStep_markLocation hslot hc hmark rfl
  | finalize hslot =>
      refine .silent rfl ?_
      rw [report, Recorder.module_finalize]
      rfl
  | addSubprogram name linkageName line hslot hexposed hadd =>
      refine .silent rfl ?_
      rw [setRecorder, Recorder.module_addSubprogram? hadd]
      rfl
  | addLocation line hslot hexposed hadd =>
      refine .silent rfl ?_
      rw [Recorder.module_addLocation? hadd]
      rfl
  | _ => exact .silent rfl rfl

/-! ## The log explains the session -/

end Session

namespace CursorLog

variable {s s' : Session} {log events : CursorLog}

private theorem Explains.cursors_step (h : log.Explains s) (hstep : s.CursorStep s' events) {n : Nat}
    {c : Cursor} (hc : s'.cursors[n]? = some c) :
    last? (log ++ events) n CursorEvent.location? = some c.location ∧
      last? (log ++ events) n CursorEvent.block? = some c.block := by
  cases hstep with
  | silent hcursors hspots =>
      rw [hcursors] at hc
      rw [List.append_nil]
      exact h.cursors n c hc
  | opened block hcursors hspots =>
      rw [hcursors, Array.getElem?_push] at hc
      split at hc
      next hn =>
        cases hc
        rw [last?_concat, last?_concat, if_pos hn.symm, if_pos hn.symm]
        exact ⟨rfl, rfl⟩
      next hn =>
        rw [last?_concat_of_ne (Ne.symm hn), last?_concat_of_ne (Ne.symm hn)]
        exact h.cursors n c hc
  | @told k old event hold hevent hcursors hspots =>
      rw [hcursors, Array.getElem?_modify] at hc
      split at hc
      next hk =>
        subst hk
        rw [hold] at hc
        cases hc
        obtain ⟨hlocation, hblock⟩ := h.cursors k old hold
        rw [last?_concat, last?_concat, if_pos rfl, if_pos rfl, hlocation, hblock,
          event.or_location?, event.or_block?]
        exact ⟨rfl, rfl⟩
      next hk =>
        rw [last?_concat_of_ne hk, last?_concat_of_ne hk]
        exact h.cursors n c hc
  | @emitted k old hold hcursors hspots =>
      rw [hcursors] at hc
      rw [last?_concat_of_none log k n rfl, last?_concat_of_none log k n rfl]
      exact h.cursors n c hc

private theorem Explains.instrs_step (h : log.Explains s) (hstep : s.CursorStep s' events) :
    CursorLog.instrs (log ++ events) = s'.module.instrIds := by
  rw [instrs_append, h.instrs, Module.instrIds_eq_of_spots, Module.instrIds_eq_of_spots]
  cases hstep with
  | silent hcursors hspots =>
      rw [hspots]
      exact List.append_nil _
  | opened block hcursors hspots =>
      rw [hspots]
      exact List.append_nil _
  | @told n c event hc hevent hcursors hspots =>
      have hnone : CursorLog.instrs [(n, event)] = [] := by
        simp [CursorLog.instrs, hevent]
      rw [hspots, hnone, List.append_nil]
  | emitted hc hcursors hspots =>
      rw [hspots, List.length_append, List.length_singleton, List.range_succ, List.map_append,
        Module.length_spots]
      rfl

private theorem Explains.emitted_step (h : log.Explains s) (hstep : s.CursorStep s' events) {id : InstrId}
    {i : Instruction} (hi : s'.module.instruction? id = some i) :
    EmittedAt (log ++ events) id i.location i.block := by
  have hspot : s'.module.spots[id.index]? = some (i.location, i.block) := by
    rw [Module.getElem?_spots, hi]
    rfl
  -- An instruction that the session had before was emitted before.
  have hold (hkept : s.module.spots[id.index]? = some (i.location, i.block)) :
      EmittedAt (log ++ events) id i.location i.block := by
    rw [Module.getElem?_spots] at hkept
    obtain ⟨old, hold, hsame⟩ := Option.map_eq_some_iff.mp hkept
    obtain ⟨hlocation, hblock⟩ := Prod.mk.inj hsame
    rw [← hlocation, ← hblock]
    exact (h.emitted id old hold).append events
  cases hstep with
  | silent hcursors hspots => exact hold (hspots ▸ hspot)
  | opened block hcursors hspots => exact hold (hspots ▸ hspot)
  | told hc hevent hcursors hspots => exact hold (hspots ▸ hspot)
  | @emitted n c hc hcursors hspots =>
      by_cases hnew : id.index = s.module.spots.length
      · rw [hspots, hnew, List.getElem?_concat_length] at hspot
        obtain ⟨hlocation, hblock⟩ := Prod.mk.inj (Option.some.inj hspot)
        obtain ⟨hlocation', hblock'⟩ := h.cursors n c hc
        obtain ⟨index⟩ := id
        rw [Module.length_spots] at hnew
        cases hnew
        exact ⟨n, log, [], rfl, hlocation ▸ hlocation', hblock ▸ hblock'⟩
      · have hlt : id.index < s.module.spots.length := by
          obtain ⟨hlt, -⟩ := List.getElem?_eq_some_iff.mp hspot
          rw [hspots, List.length_append, List.length_singleton] at hlt
          omega
        rw [hspots, List.getElem?_append_left hlt] at hspot
        exact hold hspot

theorem Explains.step (h : log.Explains s) (hstep : s.CursorStep s' events)
    (hfiled : s'.module.IsFiled) : Explains (log ++ events) s' where
  cursors _ _ hc := h.cursors_step hstep hc
  instrs := h.instrs_step hstep
  emitted _ _ hi := h.emitted_step hstep hi
  listed _ _ _ hi := hfiled.mem_blockInstrs_iff_block hi

theorem Explains.start (workingDirectory : List UInt8) (name : String) :
    Explains [] (.start workingDirectory name) where
  cursors _ _ hc := by cases hc
  instrs := rfl
  emitted _ _ hi := by cases hi
  listed _ _ _ hi := by cases hi

end CursorLog

/-- After any run, whatever cursors, recorders and graph edits took turns in it, the log of the
cursors explains where every instruction stands and which location it has. -/
theorem Session.cursorLog_explains_run (workingDirectory : List UInt8) (name : String)
    (commands : List Command) :
    CursorLog.Explains ((start workingDirectory name).follow cursorLogAfter [] commands)
      ((start workingDirectory name).run commands).2 := by
  have hstep : ∀ {s s' : Session} {log : CursorLog} {command : Command} {answer : Answer},
      s.module.IsFiled ∧ log.Explains s → s.perform command = .ok (answer, s') →
      s'.module.IsFiled ∧ CursorLog.Explains (s.cursorLogAfter log command) s' := by
    intro s s' log command answer ⟨hfiled, hlog⟩ hperform
    have hfiled' := hfiled.steps (performs_of_ok hperform).steps
    rw [cursorLogAfter, hperform]
    exact ⟨hfiled', hlog.step (performs_of_ok hperform).cursorStep hfiled'⟩
  exact (follow_invariant (I := fun s log => s.module.IsFiled ∧ CursorLog.Explains log s) hstep
    ⟨.empty name, .start workingDirectory name⟩ commands).2

end DebugMetadata

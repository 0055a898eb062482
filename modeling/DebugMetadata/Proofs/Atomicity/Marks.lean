import DebugMetadata.Proofs.Atomicity.Calls
import DebugMetadata.Proofs.History.Tracking
import DebugMetadata.Proofs.Session.Continuity

/-!
# Marks before a subprogram

A location belongs to a subprogram.  A recorder that has none registered, by itself or by the
recorder it was cloned from, can neither mark a line nor add a location, and that is the only
reason why it cannot.  A line that repeats the last one is no way round this: the last line
was marked in a subprogram.
-/

namespace DebugMetadata

variable {m m' : Module} {c c' : Cursor} {line : Nat}

/-! ## One recorder -/

namespace Recorder

variable {r r' : Recorder} {history : History} {id : NodeId} {event : Option Event}

theorem active?_addSubprogram? {name linkageName : String}
    (hadd : r.addSubprogram? name linkageName line m = some (id, r', m')) :
    r'.active? = some id := by
  rcases addSubprogram?_cases hadd with ⟨t, -, hid, hr', -⟩ | ⟨t, -, hid, hr', -⟩
  · rw [hr', TypedRecorder.recorder_addSubprogram, ← hid]
    rfl
  · rw [hr', TaggedRecorder.recorder_addSubprogram, ← hid]
    rfl

/-- New locations belong to the subprogram that was registered last, and a line is only
remembered by a recorder that has a subprogram. -/
structure Scoped (r : Recorder) (history : History) : Prop where
  active : r.active? = history.registrations.getLast?.map (·.id)
  lastLine : ∀ t, r = .tagged t → t.lastLine ≠ none → t.active ≠ none

namespace Scoped

theorem create {schema : Option Schema} {settings : Settings}
    {workingDirectory path : List UInt8}
    (hcreate : Recorder.create schema settings workingDirectory path m = .ok (r, m', event)) :
    r.Scoped {} := by
  rcases create_cases hcreate with ⟨-, rfl, -⟩ | ⟨source, -, -, rfl, -⟩ | ⟨source, -, -, rfl, -⟩
  · exact ⟨rfl, fun t ht => by cases ht⟩
  · exact ⟨TypedRecorder.active_create settings source m.graph, fun t ht => by cases ht⟩
  · refine ⟨TaggedRecorder.active_create settings source m.graph, ?_⟩
    intro t ht hlast
    rw [← Recorder.tagged.inj ht] at hlast
    exact absurd (TaggedRecorder.lastLine_create settings source m.graph) hlast

theorem addSubprogram {name linkageName : String}
    (hadd : r.addSubprogram? name linkageName line m = some (id, r', m')) :
    r'.Scoped (history.add r m (.addSubprogram name linkageName line)) := by
  have hactive := active?_addSubprogram? hadd
  rw [History.add_addSubprogram hadd]
  refine ⟨?_, ?_⟩
  · rw [hactive, List.getLast?_concat]
    rfl
  · intro t ht _ hnone
    rw [ht] at hactive
    exact Option.some_ne_none id (hactive.symm.trans hnone)

theorem markSubprogram (h : r.Scoped history) {function : FunctionId} {name : String}
    (hmark : r.markSubprogram m function name line = .ok (r', m', event)) :
    r'.Scoped (history.add r m (.markSubprogram function name line)) := by
  rcases markSubprogram_cases hmark with
    ⟨rfl, rfl, -⟩ | ⟨t, f, rfl, hf, rfl, -⟩ | ⟨t, f, rfl, hf, rfl, -⟩
  · rw [History.add_of_none rfl (registration?_off m _)]
    exact h
  · rw [History.add_markSubprogram hf]
    exact addSubprogram (addSubprogram?_typed t name f.name line m)
  · rw [History.add_markSubprogram hf]
    exact addSubprogram (addSubprogram?_tagged t name f.name line m)

theorem markLocation (h : r.Scoped history) {k : Nat}
    (hmark : r.markLocation m c line = .ok (r', c', m', event)) :
    r'.Scoped (history.add r m (.markLocation k line)) := by
  rw [History.add_markLocation]
  rcases markLocation_cases hmark with ⟨rfl, rfl, -⟩ | ⟨t, scope, rfl, -, rfl, -⟩ |
    ⟨t, rfl, hline, rfl, -⟩ | ⟨t, scope, rfl, -, hactive, -, rfl, -⟩
  · exact ⟨h.active, h.lastLine⟩
  · exact ⟨h.active, h.lastLine⟩
  · exact ⟨h.active, h.lastLine⟩
  · refine ⟨h.active, ?_⟩
    intro t' ht' _
    cases ht'
    exact hactive ▸ Option.some_ne_none scope

/-- Every call keeps the scope. -/
theorem tracks : Tracks fun r history _ => r.Scoped history where
  mono h _ := h
  create _ hcreate := .create hcreate
  markSubprogram h _ hmark := h.markSubprogram hmark
  markLocation h hmark := h.markLocation hmark
  addSubprogram _ _ hadd := .addSubprogram hadd

theorem active?_eq_none_iff (h : r.Scoped history) :
    r.active? = none ↔ history.registrations = [] := by
  rw [h.active, Option.map_eq_none_iff, List.getLast?_eq_none_iff]

end Scoped

/-! ## Without a subprogram -/

/-- A recorder that is on and has no subprogram fails, also where it would skip a line that
repeats the last one. -/
theorem markLocation_of_inactive (hon : r ≠ .off) (hactive : r.active? = none)
    (hlast : ∀ t, r = .tagged t → t.lastLine ≠ none → t.active ≠ none) (m : Module) (c : Cursor)
    (line : Nat) : r.markLocation m c line = .error .noSubprogram := by
  cases r with
  | off => exact absurd rfl hon
  | typed t =>
      have hnone : t.active = none := hactive
      simp only [markLocation, TypedRecorder.markLocation, TypedRecorder.addLocation, hnone]
      rfl
  | tagged t =>
      have hnone : t.active = none := hactive
      have hline : t.lastLine ≠ some line := by
        intro hline
        exact hlast t rfl (hline ▸ Option.some_ne_none line) hnone
      simp only [markLocation, TaggedRecorder.markLocation, if_neg hline,
        TaggedRecorder.addLocation, hnone]
      rfl

theorem addLocation?_of_inactive (hon : r ≠ .off) (hactive : r.active? = none) (line : Nat)
    (m : Module) : r.addLocation? line m = some (.error .noSubprogram) := by
  cases r with
  | off => exact absurd rfl hon
  | typed t =>
      have hnone : t.active = none := hactive
      simp only [addLocation?, TypedRecorder.addLocation, hnone]
      rfl
  | tagged t =>
      have hnone : t.active = none := hactive
      simp only [addLocation?, TaggedRecorder.addLocation, hnone]
      rfl

theorem addLocation?_of_active (hactive : r.active? ≠ none) (line : Nat) (m : Module) :
    ∃ added, r.addLocation? line m = some (.ok added) := by
  obtain ⟨scope, hscope⟩ := Option.ne_none_iff_exists'.mp hactive
  cases r with
  | off => cases hscope
  | typed t =>
      have hsome : t.active = some scope := hscope
      simp only [addLocation?, TypedRecorder.addLocation, hsome]
      exact ⟨_, rfl⟩
  | tagged t =>
      have hsome : t.active = some scope := hscope
      simp only [addLocation?, TaggedRecorder.addLocation, hsome]
      exact ⟨_, rfl⟩

theorem isReady_of_active (hactive : r.active? ≠ none) : r.IsReady := by
  cases r with
  | off => trivial
  | typed t => exact Option.isSome_iff_ne_none.mpr hactive
  | tagged t => exact Option.isSome_iff_ne_none.mpr hactive

end Recorder

/-! ## The recorders of a session -/

namespace Session

variable {s : Session} {n k : Nat} {slot : RecorderSlot} {history : History}

/-- In every session that a run leads to, and for every recorder that is on: a mark of a line
in a block that exists, and the addition of a location, fail exactly if neither the recorder
nor, before it was cloned, the one it is a clone of has registered a subprogram.  They fail
with nothing written yet, and the run goes on as if they had not been called.  A tagged
recorder that remembers a line has an active subprogram, so that no repeated line is skipped
where the mark would fail. -/
theorem mark_error_iff_unregistered (commands : List Command) (workingDirectory : List UInt8)
    (name : String) (hrun : ((Session.start workingDirectory name).run commands).2 = s)
    (hslot : s.recorders[n]? = some slot) (hon : slot.recorder ≠ .off)
    (hc : s.cursors[k]? = some c) (hblock : c.block.index < s.module.blocks.size) :
    ∃ history,
      ((Session.start workingDirectory name).remember #[] commands)[n]? = some history ∧
      (∀ t, slot.recorder = .tagged t → t.lastLine ≠ none → t.active ≠ none) ∧
      ∀ line,
        (∀ fault, s.perform (.recorder n (.markLocation k line)) = .error fault ↔
          fault = .noSubprogram ∧ history.registrations = []) ∧
        (slot.isExposed = true →
          ∀ fault, s.perform (.recorder n (.addLocation line)) = .error fault ↔
            fault = .noSubprogram ∧ history.registrations = []) ∧
        (history.registrations = [] →
          (Recorder.writeMark line).on ⟨slot.recorder, s.module, c⟩ =
            (.error .noSubprogram, ⟨slot.recorder, s.module, c⟩) ∧
          (slot.recorder.writeLocation? line).map (·.on s.module) =
            some (.error .noSubprogram, s.module) ∧
          s.Refuses (.recorder n (.markLocation k line)) .noSubprogram ∧
          (slot.isExposed = true → s.Refuses (.recorder n (.addLocation line)) .noSubprogram)) := by
  have htracked := Recorder.Scoped.tracks.run commands workingDirectory name
  rw [hrun] at htracked
  obtain ⟨history, hhistory, hscoped⟩ := htracked.exists_history hslot
  refine ⟨history, hhistory, hscoped.lastLine, ?_⟩
  intro line
  by_cases hactive : slot.recorder.active? = none
  · have hnone := hscoped.active?_eq_none_iff.mp hactive
    have hmark := Recorder.markLocation_of_inactive hon hactive hscoped.lastLine s.module c line
    have hadd := Recorder.addLocation?_of_inactive hon hactive line s.module
    have hperform : s.perform (.recorder n (.markLocation k line)) = .error .noSubprogram := by
      rw [perform_markLocation hslot hc, hmark]
      rfl
    have hperform' (hexposed : slot.isExposed = true) :
        s.perform (.recorder n (.addLocation line)) = .error .noSubprogram := by
      rw [perform_addLocation hslot, hexposed, hadd]
      rfl
    refine ⟨?_, ?_, ?_⟩
    · intro fault
      rw [hperform, Except.error.injEq, eq_comm, and_iff_left hnone]
    · intro hexposed fault
      rw [hperform' hexposed, Except.error.injEq, eq_comm, and_iff_left hnone]
    · intro _
      refine ⟨?_, ?_, refuses_of_error hperform nofun,
        fun hexposed => refuses_of_error (hperform' hexposed) nofun⟩
      · rw [Recorder.on_writeMark hblock, hmark]
        rfl
      · rw [Recorder.on_writeLocation?, hadd]
        rfl
  · have hsome := mt hscoped.active?_eq_none_iff.mpr hactive
    obtain ⟨r, c', m, event, hmark, -⟩ :=
      Recorder.markLocation_ok (Recorder.isReady_of_active hactive) hblock line
    obtain ⟨added, hadd⟩ := Recorder.addLocation?_of_active hactive line s.module
    refine ⟨?_, ?_, fun hnone => absurd hnone hsome⟩
    · intro fault
      rw [perform_markLocation_of_ok hslot hc hmark]
      exact iff_of_false nofun fun h => hsome h.2
    · intro hexposed fault
      rw [perform_addLocation hslot, hexposed, hadd]
      exact iff_of_false nofun fun h => hsome h.2

/-- A recorder is cloned and then registers a function, of which its clone is not told. -/
def earlyClone : List Command :=
  [.addFunction "main" ⟨.i32, []⟩, .appendBlock ⟨0⟩ "entry", .openCursor ⟨0⟩,
    .createRecorder (.fixed .legacy) {} [0x2F, 0x61], .recorder 0 .clone,
    .recorder 0 (.markSubprogram ⟨0⟩ "main" 1), .recorder 0 (.markLocation 0 2)]

/-- A clone is refused every line until it registers a function itself, while its original,
which has registered one since, is refused none. -/
theorem mark_error_iff_unregistered_of_early_clone :
    ∃ s original clone c,
      ((Session.start [] "m").run earlyClone).2 = s ∧
      s.recorders[0]? = some original ∧ original.recorder ≠ .off ∧
      s.recorders[1]? = some clone ∧ clone.recorder ≠ .off ∧ clone.isExposed = true ∧
      s.cursors[0]? = some c ∧ c.block.index < s.module.blocks.size ∧
      ∀ line,
        s.Refuses (.recorder 1 (.markLocation 0 line)) .noSubprogram ∧
        s.Refuses (.recorder 1 (.addLocation line)) .noSubprogram ∧
        ∀ fault, s.perform (.recorder 0 (.markLocation 0 line)) ≠ .error fault := by
  let declared := startDeclaring [] "m" "main" ⟨.i32, []⟩
  have hdeclare := perform_start_addFunction [] "m" "main" ⟨.i32, []⟩
  have hrun : ((Session.start [] "m").run earlyClone).2 = (declared.run earlyClone.tail).2 :=
    run_cons hdeclare _
  have hremember : (Session.start [] "m").remember #[] earlyClone =
      declared.remember #[] earlyClone.tail := remember_cons hdeclare _ _
  have horiginal : (declared.run earlyClone.tail).2.recorders[0]?.map
      (fun slot => decide (slot.recorder ≠ .off)) = some true := by decide +kernel
  have hclone : (declared.run earlyClone.tail).2.recorders[1]?.map
      (fun slot => (decide (slot.recorder ≠ .off), slot.isExposed)) = some (true, true) := by
    decide +kernel
  have hc : (declared.run earlyClone.tail).2.cursors[0]? = some ⟨⟨0⟩, none⟩ := by
    decide +kernel
  have hblock : 0 < (declared.run earlyClone.tail).2.module.blocks.size := by decide +kernel
  have hregistered : (declared.remember #[] earlyClone.tail)[0]?.map
      (·.registrations.isEmpty) = some false := by decide +kernel
  have hunregistered : (declared.remember #[] earlyClone.tail)[1]?.map
      (·.registrations.isEmpty) = some true := by decide +kernel
  obtain ⟨original, hslot₀, horiginal⟩ := Option.map_eq_some_iff.mp horiginal
  obtain ⟨clone, hslot₁, hclone⟩ := Option.map_eq_some_iff.mp hclone
  obtain ⟨hclone, hexposed⟩ := Prod.mk.inj hclone
  have hon₀ := of_decide_eq_true horiginal
  have hon₁ := of_decide_eq_true hclone
  obtain ⟨history₀, hhistory₀, -, hlaw₀⟩ :=
    mark_error_iff_unregistered earlyClone [] "m" hrun hslot₀ hon₀ hc hblock
  obtain ⟨history₁, hhistory₁, -, hlaw₁⟩ :=
    mark_error_iff_unregistered earlyClone [] "m" hrun hslot₁ hon₁ hc hblock
  rw [← hremember, hhistory₀, Option.map_some, Option.some.injEq] at hregistered
  rw [← hremember, hhistory₁, Option.map_some, Option.some.injEq] at hunregistered
  refine ⟨_, original, clone, _, hrun, hslot₀, hon₀, hslot₁, hon₁, hexposed, hc, hblock, ?_⟩
  intro line
  obtain ⟨hfails, -, -⟩ := hlaw₀ line
  obtain ⟨-, -, hclean⟩ := hlaw₁ line
  obtain ⟨-, -, hmark, hadd⟩ := hclean (List.isEmpty_iff.mp hunregistered)
  refine ⟨hmark, hadd hexposed, ?_⟩
  intro fault herror
  rw [((hfails fault).mp herror).2] at hregistered
  cases hregistered

end Session

end DebugMetadata

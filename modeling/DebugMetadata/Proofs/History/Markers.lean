import DebugMetadata.Proofs.History.Recorders
import DebugMetadata.Proofs.Session.Continuity

/-!
# When a marker is emitted

A tagged recorder that is told a line emits a marker exactly if the line is new in
its history, whatever else was done to the session and by which recorders.
-/

namespace DebugMetadata.Session

/-- Between the sessions the marker of a line was emitted at the end of a cursor's
block, with the location of the line in a subprogram, and nothing else was done to
the module. -/
def EmitsMarker (s s' : Session) (c : Cursor) (line : Nat) (scope : NodeId) : Prop :=
  ∃ location graph,
    s.module.graph.addTuple [.i32 line, .i32 0, .node scope, .null] = (location, graph) ∧
    graph.node? location = some (.tuple [.i32 line, .i32 0, .node scope, .null]) ∧
    s'.module = { s.module with graph }.pushInstruction
      { operation := .call (.asm ⟨.unit, "// dbg " ++ line.repr, "", true⟩) []
        block := c.block
        location := c.location
        attachments := ⟨[("ori.dbg", location)]⟩ }

/-- Between the sessions nothing was done to the module, and no recorder remembers
more. -/
def SkipsMarker (s s' : Session) : Prop :=
  s'.module = s.module ∧ s'.recorders = s.recorders

variable {s s' : Session} {n k line : Nat} {c : Cursor} {scope : NodeId} {slot : RecorderSlot}
  {t : TaggedRecorder}

/-- No module is that of a session with a marker more and of one with none more. -/
theorem EmitsMarker.not_skipsMarker (h : s.EmitsMarker s' c line scope) :
    ¬ s.SkipsMarker s' := by
  obtain ⟨location, graph, -, -, hmodule⟩ := h
  rintro ⟨hsame, -⟩
  have hsize := congrArg (fun m => m.instructions.size) (hmodule.symm.trans hsame)
  dsimp only at hsize
  rw [Module.size_pushInstruction] at hsize
  exact absurd hsize (Nat.succ_ne_self _)

/-- A line that repeats the recorder's last one is skipped. -/
theorem exists_skipsMarker (hslot : s.recorders[n]? = some slot) (ht : slot.recorder = .tagged t)
    (hc : s.cursors[k]? = some c) (hline : t.lastLine = some line) :
    ∃ s', s.perform (.recorder n (.markLocation k line)) = .ok (.location c.location, s') ∧
      s'.cursors = s.cursors ∧ s.SkipsMarker s' := by
  have hmark : slot.recorder.markLocation s.module c line =
      .ok (slot.recorder, c, s.module, some (.skippedLine line)) := by
    simp only [ht, Recorder.markLocation, TaggedRecorder.markLocation_of_repeated hline, bind,
      Except.bind, pure, Except.pure]
  exact ⟨_, perform_markLocation_of_ok hslot hc hmark, cursors_modify_self hc, rfl,
    recorders_modify_self hslot⟩

/-- A line that differs from the recorder's last one gets a marker. -/
theorem exists_emitsMarker (hs : s.module.graph.Indexed) (hslot : s.recorders[n]? = some slot)
    (ht : slot.recorder = .tagged t) (hc : s.cursors[k]? = some c)
    (hblock : c.block.index < s.module.blocks.size) (hline : t.lastLine ≠ some line)
    (hscope : t.active = some scope) :
    ∃ s', s.perform (.recorder n (.markLocation k line)) = .ok (.location c.location, s') ∧
      s'.cursors = s.cursors ∧ (∀ j, j ≠ n → s'.recorders[j]? = s.recorders[j]?) ∧
      s.EmitsMarker s' c line scope := by
  have hnode := hs.node?_add (.tuple (TaggedRecorder.locationOperands line scope))
  have hmark : slot.recorder.markLocation s.module c line =
      .ok (.tagged { t with lastLine := some line }, c,
        { s.module with graph := (s.module.graph.addTuple
          (TaggedRecorder.locationOperands line scope)).2 }.pushInstruction
            (TaggedRecorder.markerAt c line
              (s.module.graph.addTuple (TaggedRecorder.locationOperands line scope)).1),
        some (.markedLocation line)) := by
    simp only [ht, Recorder.markLocation, TaggedRecorder.markLocation_of_new hline hscope hblock,
      bind, Except.bind, pure, Except.pure]
  exact ⟨_, perform_markLocation_of_ok hslot hc hmark, cursors_modify_self hc,
    fun j hj => getElem?_setRecorder_of_ne hj _, _, _, rfl, hnode, rfl⟩

/-- In every session that a run leads to, and for every tagged recorder that has
registered a subprogram, itself or the one it was cloned from: the mark of a line in
a block that exists emits a marker, in the subprogram that was registered last,
exactly if the line is new in the recorder's history, and is skipped otherwise. -/
theorem emitsMarker_iff_isNew (commands : List Command) (workingDirectory : List UInt8)
    (name : String)
    (hrun : ((Session.start workingDirectory name).run commands).2 = s)
    (hslot : s.recorders[n]? = some slot) (ht : slot.recorder = .tagged t)
    (hc : s.cursors[k]? = some c) (hblock : c.block.index < s.module.blocks.size) :
    ∃ history,
      ((Session.start workingDirectory name).remember #[] commands)[n]? = some history ∧
      ∀ registration, history.registrations.getLast? = some registration →
        (∃ pair type locals function,
          TaggedRecorder.HasFile t.source s.module.graph t.file pair ∧
          s.module.graph.node? registration.id =
            some (.tuple (t.subprogramOperands pair t.file registration.name
              registration.linkageName registration.line type locals function))) ∧
        ∀ line, ∃ s',
          s.perform (.recorder n (.markLocation k line)) = .ok (.location c.location, s') ∧
          s'.cursors = s.cursors ∧
          (∀ j, j ≠ n → s'.recorders[j]? = s.recorders[j]?) ∧
          (s.EmitsMarker s' c line registration.id ↔ history.IsNew line) ∧
          (s.SkipsMarker s' ↔ ¬ history.IsNew line) := by
  have hremembers := Remembers.run commands workingDirectory name
  rw [hrun] at hremembers
  have hlt := hremembers.size ▸ (Array.getElem?_eq_some_iff.mp hslot).1
  have hhistory := Array.getElem?_eq_getElem hlt
  have hfollows := hremembers.follows n slot _ hslot hhistory t ht
  refine ⟨_, hhistory, ?_⟩
  generalize ((Session.start workingDirectory name).remember #[] commands)[n] = history at hfollows
  intro registration hregistration
  refine ⟨hfollows.registered registration (List.mem_of_getLast? hregistration), ?_⟩
  intro line
  by_cases hline : t.lastLine = some line
  · have hold : ¬ history.IsNew line := by
      rw [History.isNew_iff, ← hfollows.lastLine]
      exact fun hnew => hnew hline
    obtain ⟨s', hperform, hcursors, hskips⟩ := exists_skipsMarker hslot ht hc hline
    refine ⟨s', hperform, hcursors, fun j _ => by rw [hskips.2], ?_, ?_⟩
    · exact iff_of_false (fun hemits => hemits.not_skipsMarker hskips) hold
    · exact iff_of_true hskips hold
  · have hnew : history.IsNew line := by
      rw [History.isNew_iff, ← hfollows.lastLine]
      exact hline
    have hscope : t.active = some registration.id := by
      rw [hfollows.active, hregistration]
      rfl
    obtain ⟨s', hperform, hcursors, hothers, hemits⟩ :=
      exists_emitsMarker hremembers.indexed hslot ht hc hblock hline hscope
    refine ⟨s', hperform, hcursors, hothers, ?_, ?_⟩
    · exact iff_of_true hemits hnew
    · exact iff_of_false hemits.not_skipsMarker (not_not_intro hnew)

/-- A recorder marks the second line of a function and is cloned. -/
def cloningRun : List Command :=
  [.addFunction "main" ⟨.i32, []⟩, .appendBlock ⟨0⟩ "entry", .openCursor ⟨0⟩,
    .createRecorder (.fixed .legacy) {} [0x2F, 0x61],
    .recorder 0 (.markSubprogram ⟨0⟩ "main" 1), .recorder 0 (.markLocation 0 2),
    .recorder 0 .clone]

/-- A clone that was told no line itself emits no marker for the line that its
original was told, and one for any other line. -/
theorem emitsMarker_iff_isNew_of_clone :
    ∃ s slot t c history registration,
      ((Session.start [] "m").run cloningRun).2 = s ∧ s.recorders[1]? = some slot ∧
      slot.recorder = .tagged t ∧ s.cursors[0]? = some c ∧
      c.block.index < s.module.blocks.size ∧
      ((Session.start [] "m").remember #[] cloningRun)[1]? = some history ∧
      history.registrations.getLast? = some registration ∧
      ∀ line, ∃ s',
        s.perform (.recorder 1 (.markLocation 0 line)) = .ok (.location c.location, s') ∧
        (s.EmitsMarker s' c line registration.id ↔ 2 ≠ line) := by
  let declared := startDeclaring [] "m" "main" ⟨.i32, []⟩
  have hadd := perform_start_addFunction [] "m" "main" ⟨.i32, []⟩
  have hrun : ((Session.start [] "m").run cloningRun).2 = (declared.run cloningRun.tail).2 :=
    run_cons hadd _
  have hremember : (Session.start [] "m").remember #[] cloningRun =
      declared.remember #[] cloningRun.tail := remember_cons hadd _ _
  have hschema : (declared.run cloningRun.tail).2.schema? 1 = some .legacy := by decide +kernel
  have hc : (declared.run cloningRun.tail).2.cursors[0]? = some ⟨⟨0⟩, none⟩ := by decide +kernel
  have hblock : 0 < (declared.run cloningRun.tail).2.module.blocks.size := by decide +kernel
  have hlines : (declared.remember #[] cloningRun.tail)[1]?.map (·.lines) = some [2] := by
    decide +kernel
  have hregistered : ((declared.remember #[] cloningRun.tail)[1]?.bind
      (·.registrations.getLast?)).isSome = true := by decide +kernel
  obtain ⟨t, slot, hslot, ht⟩ := exists_tagged_of_schema? hschema
  obtain ⟨history, hhistory, hlaw⟩ :=
    emitsMarker_iff_isNew cloningRun [] "m" hrun hslot ht hc hblock
  rw [← hremember, hhistory] at hlines hregistered
  obtain ⟨registration, hregistration⟩ := Option.isSome_iff_exists.mp hregistered
  refine ⟨_, slot, t, _, history, registration, hrun, hslot, ht, hc, hblock, hhistory,
    hregistration, ?_⟩
  intro line
  obtain ⟨-, hmark⟩ := hlaw registration hregistration
  obtain ⟨s', hperform, -, -, hemits, -⟩ := hmark line
  refine ⟨s', hperform, hemits.trans ?_⟩
  rw [Option.map_some, Option.some.injEq] at hlines
  rw [History.isNew_iff, hlines]
  change some 2 ≠ some line ↔ 2 ≠ line
  rw [ne_eq, Option.some.injEq]

end DebugMetadata.Session

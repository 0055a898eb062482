import DebugMetadata.Proofs.Atomicity.Calls
import DebugMetadata.Proofs.Atomicity.Choice
import DebugMetadata.Proofs.Source.Files

/-!
# The creation of a recorder

A recorder whose level is off is created for every path and never changes anything.  Any
other one is created exactly if the path names a source file, and if it does not, nothing has
been written.  A recorder that is chosen by the settings does what one does that is made in
the form the settings stand for.
-/

namespace DebugMetadata

/-- The choice of the form that the settings stand for. -/
def Settings.directChoice (settings : Settings) : RecorderChoice :=
  match settings.activeSchema with
  | none => .off
  | some schema => .fixed schema

theorem Settings.schema_directChoice (settings : Settings) :
    settings.directChoice.schema settings = settings.activeSchema := by
  rw [directChoice]
  cases settings.activeSchema <;> rfl

theorem Settings.activeSchema_of_disabled {settings : Settings}
    (h : settings.level.isEnabled = false) : settings.activeSchema = none := by
  rw [activeSchema, h]
  rfl

theorem Recorder.create_eq_error_iff {schema : Schema} {settings : Settings}
    {workingDirectory path : List UInt8} {m : Module} {fault : Fault} :
    create (some schema) settings workingDirectory path m = .error fault ↔
      SourceFile.ofPath workingDirectory path = .error fault := by
  cases hsource : SourceFile.ofPath workingDirectory path with
  | error fault' =>
      simp only [create, hsource, bind, Except.bind, Except.error.injEq]
  | ok source =>
      obtain ⟨r, m', hcreate⟩ := create_ok schema settings hsource m
      rw [hcreate]
      exact iff_of_false (by simp) (by simp)

namespace Session

variable {s s' : Session} {n : Nat} {command : Command} {answer : Answer}

/-! ## A recorder that is off -/

/-- A recorder that is off stays off. -/
theorem Performs.getElem?_off (h : s.Performs command answer s') {choice : RecorderChoice}
    (hslot : s.recorders[n]? = some ⟨choice, .off⟩) :
    s'.recorders[n]? = some ⟨choice, .off⟩ := by
  have hlt := (Array.getElem?_eq_some_iff.mp hslot).1
  obtain ⟨slot', hslot'⟩ : ∃ slot', s'.recorders[n]? = some slot' :=
    ⟨_, Array.getElem?_eq_getElem (Nat.lt_of_lt_of_le hlt h.recorders_le)⟩
  rw [hslot']
  cases h.recorderOrigin hslot' with
  | kept hkept => exact hkept.symm.trans hslot
  | created choice settings path hn hcreate => exact absurd hn (Nat.ne_of_lt hlt)
  | cloned hn horiginal => exact absurd hn (Nat.ne_of_lt hlt)
  | registered function name line hold hmark =>
      cases hold.symm.trans hslot
      rcases Recorder.markSubprogram_cases hmark with ⟨-, rfl, -⟩ | ⟨t, -, ht, -⟩ | ⟨t, -, ht, -⟩
      · rfl
      · cases ht
      · cases ht
  | marked k line hold hc hmark =>
      cases hold.symm.trans hslot
      rcases Recorder.markLocation_cases hmark with ⟨-, rfl, -⟩ | ⟨t, -, ht, -⟩ | ⟨t, ht, -⟩ |
        ⟨t, -, ht, -⟩
      · rfl
      · cases ht
      · cases ht
      · cases ht
  | added name linkageName line hold hadd =>
      cases hold.symm.trans hslot
      cases hadd

/-- A recorder that is off and was chosen by the settings answers a call without any change,
or the call is refused. -/
theorem perform_off (hslot : s.recorders[n]? = some ⟨.bySettings, .off⟩)
    (command : RecorderCommand) :
    (∃ answer, s.perform (.recorder n command) = .ok (answer, s)) ∨
      ∃ fault, fault ≠ .dangling ∧ s.perform (.recorder n command) = .error fault := by
  have hset : s.setRecorder n .off = s := setRecorder_self hslot
  cases command with
  | clone => exact .inr ⟨.notOffered n, nofun, perform_clone hslot⟩
  | markSubprogram function name line =>
      refine .inl ⟨.done, (perform_markSubprogram hslot function name line).trans ?_⟩
      exact congrArg (fun s => Except.ok (Answer.done, s)) ((report_none _).trans hset)
  | markLocation k line =>
      cases hc : s.cursors[k]? with
      | none =>
          exact .inr ⟨.unknownCursor k, nofun, perform_markLocation_of_none hslot hc line⟩
      | some c =>
          have hset' : ((s.setRecorder n .off).setCursor k c).report none = s := by
            rw [hset, setCursor_self hc, report_none]
          refine .inl ⟨.location c.location, (perform_markLocation hslot hc line).trans ?_⟩
          exact congrArg (fun s => Except.ok (Answer.location c.location, s)) hset'
  | finalize =>
      refine .inl ⟨.done, (perform_finalize hslot).trans ?_⟩
      exact congrArg (fun s => Except.ok (Answer.done, s)) (report_none s)
  | addSubprogram name linkageName line =>
      exact .inr ⟨.notOffered n, nofun, perform_addSubprogram hslot name linkageName line⟩
  | addLocation line => exact .inr ⟨.notOffered n, nofun, perform_addLocation hslot line⟩

/-- The calls of a recorder that is off can be left out of a run. -/
theorem run_filter_of_off {commands : List Command} :
    ∀ {s : Session}, s.recorders[n]? = some ⟨.bySettings, .off⟩ →
      (s.run commands).2 = (s.run (commands.filter fun command => !command.calls n)).2 := by
  induction commands with
  | nil => exact fun _ => rfl
  | cons command rest ih =>
      intro s hslot
      cases hcalls : command.calls n with
      | true =>
          obtain ⟨call, rfl⟩ := Command.exists_of_calls hcalls
          rw [List.filter_cons_of_neg (by rw [hcalls]; decide), ← ih hslot]
          rcases perform_off hslot call with ⟨answer, hperform⟩ | ⟨fault, hfault, hperform⟩
          · exact run_cons hperform rest
          · exact run_cons_of_error hperform hfault rest
      | false =>
          rw [List.filter_cons_of_pos (by rw [hcalls]; rfl)]
          cases hperform : s.perform command with
          | ok done =>
              rw [run_cons hperform, run_cons hperform]
              exact ih ((performs_of_ok hperform).getElem?_off hslot)
          | error fault =>
              by_cases hfault : fault = .dangling
              · rw [run, run, hperform, hfault]
              · rw [run_cons_of_error hperform hfault, run_cons_of_error hperform hfault]
                exact ih hslot

/-! ## Creation -/

/-- Recorders that are chosen differently, but in the same form, are created alike. -/
theorem perform_createRecorder_of_schema_eq {choice choice' : RecorderChoice}
    {settings : Settings} (h : choice'.schema settings = choice.schema settings)
    (s : Session) (path : List UInt8) :
    s.perform (.createRecorder choice' settings path) =
      (s.perform (.createRecorder choice settings path)).map
        (rechosen s.recorders.size choice') := by
  rw [perform_createRecorder_eq, perform_createRecorder_eq, h]
  cases Recorder.create (choice.schema settings) settings s.workingDirectory path s.module with
  | error fault => rfl
  | ok created =>
      have hpush : s.recorders.push ⟨choice', created.1⟩ =
          (s.recorders.push ⟨choice, created.1⟩).modify s.recorders.size
            ({ · with choice := choice' }) := by
        apply Array.ext_getElem?
        intro j
        rw [Array.getElem?_modify, Array.getElem?_push, Array.getElem?_push]
        by_cases hj : j = s.recorders.size
        · rw [if_pos hj, if_pos hj.symm, if_pos hj]
          rfl
        · rw [if_neg hj, if_neg (Ne.symm hj), if_neg hj]
      simp only [Except.map, rechosen, hpush]
      rfl

/-- No call of the recorder of a number ever changes anything, and a run can do without them. -/
def Inert (s : Session) (n : Nat) : Prop :=
  ∀ later,
    (∀ call answer s', (s.run later).2.perform (.recorder n call) = .ok (answer, s') →
      s' = (s.run later).2) ∧
    (s.run later).2 = (s.run (later.filter fun command => !command.calls n)).2

/-- Every run that asks of the recorder of a number only what every recorder offers gives the
same answers in both sessions, and does the same to the module, the cursors and the log. -/
def RunsAlike (s s' : Session) (n : Nat) : Prop :=
  ∀ commands, (∀ command ∈ commands, command.isCommonTo n = true) →
    (s'.run commands).1 = (s.run commands).1 ∧
    (s'.run commands).2.module = (s.run commands).2.module ∧
    (s'.run commands).2.cursors = (s.run commands).2.cursors ∧
    (s'.run commands).2.log = (s.run commands).2.log

theorem inert_of_off (hslot : s.recorders[n]? = some ⟨.bySettings, .off⟩) : s.Inert n := by
  intro later
  refine ⟨?_, run_filter_of_off hslot⟩
  intro call answer s' hperform
  have hlater : (s.run later).2.recorders[n]? = some ⟨.bySettings, .off⟩ :=
    run_keeps (fun s => s.recorders[n]? = some ⟨.bySettings, .off⟩)
      (fun hslot hperform => hperform.getElem?_off hslot) hslot later
  rcases perform_off hlater call with ⟨answer', hsame⟩ | ⟨fault, -, hfails⟩
  · cases hsame.symm.trans hperform
    rfl
  · cases hfails.symm.trans hperform

theorem runsAlike_withChoice (hn : n < s.recorders.size) (choice : RecorderChoice) :
    s.RunsAlike (s.withChoice n choice) n := by
  intro commands hcommon
  rw [run_withChoice hn hcommon]
  exact ⟨rfl, rfl, rfl, rfl⟩

/-- In every session, and for all settings and paths: with its level off, a recorder is
created whatever the path is, the module is left alone, and nothing the recorder is told
changes anything.  Otherwise, and for a recorder of a schema that is asked for, the creation
fails exactly if the path names no source file, with the same fault, and then nothing has
been written.  A recorder chosen by the settings does what one does that is made in the form
the settings stand for. -/
theorem createRecorder_atomic (s : Session) (settings : Settings) (path : List UInt8) :
    (settings.level.isEnabled = false → ∃ created,
      s.perform (.createRecorder .bySettings settings path) =
        .ok (.recorder s.recorders.size, created) ∧
      created = { s with recorders := s.recorders.push ⟨.bySettings, .off⟩ } ∧
      created.Inert s.recorders.size) ∧
    (∀ choice schema, choice.schema settings = some schema → ∀ fault,
      (s.perform (.createRecorder choice settings path) = .error fault ↔
        SourceFile.ofPath s.workingDirectory path = .error fault) ∧
      (SourceFile.ofPath s.workingDirectory path = .error fault →
        (Recorder.write (some schema) settings s.workingDirectory path).on s.module =
          (.error fault, s.module) ∧
        s.Refuses (.createRecorder choice settings path) fault)) ∧
    (∀ answer created,
      s.perform (.createRecorder .bySettings settings path) = .ok (answer, created) →
      ∃ direct,
        s.perform (.createRecorder settings.directChoice settings path) = .ok (answer, direct) ∧
        created.RunsAlike direct s.recorders.size) := by
  refine ⟨?_, ?_, ?_⟩
  · intro hlevel
    have hschema : RecorderChoice.bySettings.schema settings = none :=
      Settings.activeSchema_of_disabled hlevel
    refine ⟨_, ?_, rfl, inert_of_off Array.getElem?_push_size⟩
    rw [perform_createRecorder_eq, hschema]
    exact congrArg (fun s => Except.ok (Answer.recorder _, s)) (report_none _)
  · intro choice schema hschema fault
    have hperform : s.perform (.createRecorder choice settings path) = .error fault ↔
        SourceFile.ofPath s.workingDirectory path = .error fault := by
      have hcreate : Recorder.create (some schema) settings s.workingDirectory path s.module =
          .error fault ↔ SourceFile.ofPath s.workingDirectory path = .error fault :=
        Recorder.create_eq_error_iff
      rw [perform_createRecorder_eq, hschema, ← hcreate]
      cases Recorder.create (some schema) settings s.workingDirectory path s.module with
      | error fault' => simp only [Except.map, Except.error.injEq]
      | ok created => exact iff_of_false (by simp [Except.map]) (by simp)
    refine ⟨hperform, ?_⟩
    intro hpath
    have hfault : fault ≠ .dangling := by
      rcases SourceFile.ofPath_eq_error_iff.mp hpath with ⟨-, rfl⟩ | ⟨-, -, rfl⟩
      · exact nofun
      · exact nofun
    refine ⟨?_, refuses_of_error (hperform.mpr hpath) hfault⟩
    rw [Recorder.on_write, Recorder.create_eq_error_iff.mpr hpath]
    rfl
  · intro answer created hcreated
    have hlt : s.recorders.size < created.recorders.size := by
      cases performs_of_ok hcreated with
      | createRecorder choice settings path hcreate =>
          exact Array.size_push _ ▸ Nat.lt_succ_self _
    have hschema : settings.directChoice.schema settings =
        RecorderChoice.bySettings.schema settings := settings.schema_directChoice
    have hdirect := perform_createRecorder_of_schema_eq hschema s path
    rw [hcreated] at hdirect
    exact ⟨_, hdirect, runsAlike_withChoice hlt _⟩

/-- For a file of its own a recorder is created, for an empty path it is refused, unless the
level is off. -/
theorem createRecorder_atomic_of_start :
    let s := Session.start [] "m"
    (∃ created, s.perform (.createRecorder .bySettings {} []) = .ok (.recorder 0, created) ∧
      created.Inert 0) ∧
    (Recorder.write (some .modern) .development [] []).on s.module =
      (.error (.invalidSourcePath "" .empty), s.module) ∧
    s.Refuses (.createRecorder .bySettings .development []) (.invalidSourcePath "" .empty) ∧
    ∃ created direct,
      s.perform (.createRecorder .bySettings .development [0x2F, 0x61]) =
        .ok (.recorder 0, created) ∧
      s.perform (.createRecorder (.fixed .modern) .development [0x2F, 0x61]) =
        .ok (.recorder 0, direct) ∧
      created.RunsAlike direct 0 := by
  intro s
  obtain ⟨hoff, -, -⟩ := createRecorder_atomic s {} []
  obtain ⟨-, hrefused, -⟩ := createRecorder_atomic s .development []
  obtain ⟨-, -, halike⟩ := createRecorder_atomic s .development [0x2F, 0x61]
  obtain ⟨off, hperform, -, hinert⟩ := hoff rfl
  have hpath : SourceFile.ofPath s.workingDirectory [] =
      .error (.invalidSourcePath "" .empty) := by decide +kernel
  obtain ⟨-, hclean⟩ := hrefused .bySettings .modern rfl (.invalidSourcePath "" .empty)
  obtain ⟨hwrite, hrefuses⟩ := hclean hpath
  obtain ⟨source, hsource⟩ : ∃ source, SourceFile.ofPath s.workingDirectory [0x2F, 0x61] =
      .ok source := ⟨⟨"/", "a"⟩, by decide +kernel⟩
  obtain ⟨created, hcreated⟩ := perform_createRecorder .development
    (show RecorderChoice.bySettings.schema .development = some .modern from rfl) hsource
  obtain ⟨direct, hdirect, halike⟩ := halike _ created hcreated
  exact ⟨⟨off, hperform, hinert⟩, hwrite, hrefuses, created, direct, hcreated, hdirect, halike⟩

end Session

end DebugMetadata

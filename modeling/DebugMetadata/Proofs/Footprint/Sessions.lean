import DebugMetadata.Proofs.Commits.Runs
import DebugMetadata.Proofs.Footprint.Recorders

/-!
# The footprints of the schemas

Where all recorders are of one schema and nothing else writes metadata, a module is written
to only as the schema does it.  Tagged recorders write tuples, markers and two named lists,
and typed ones locations and what they attach to functions.  So a consumer of one schema
meets nothing of the other.
-/

namespace DebugMetadata

/-- Whether the command leaves the metadata to recorders that are off or of a schema. -/
def Command.leavesMetadataTo (schema : Schema) : Command → Bool
  | .cursor _ (.locate location) => location.isNone
  | .createRecorder choice settings _ => choice.schema settings ∈ [none, some schema]
  | command => command.leavesMetadata

namespace Command

variable {command : Command} {schema : Schema}

theorem leavesMetadata_of_leavesMetadataTo (h : command.leavesMetadataTo schema = true) :
    command.leavesMetadata = true := by
  cases command with
  | cursor n command => rfl
  | createRecorder choice settings path => rfl
  | _ => exact h

theorem leavesCommits_of_leavesMetadata (h : command.leavesMetadata = true) :
    command.leavesCommits = true := by
  cases command with
  | edit edit => cases h
  | _ => rfl

theorem asksForFlag_of_leavesMetadata (h : command.leavesMetadata = true) :
    command.asksForFlag = false := by
  cases command with
  | addFlag flag => cases h
  | _ => rfl

end Command

/-- Whether the command makes a recorder or tells one something. -/
def Command.isOfRecorder : Command → Bool
  | .createRecorder _ _ _ | .recorder _ _ => true
  | _ => false

/-- What tagged recorders write in a module. -/
structure Module.TaggedFootprint (m : Module) : Prop where
  nodes : ∀ id node, m.graph.node? id = some node → ∃ operands, node = .tuple operands
  locations : ∀ id i, m.instruction? id = some i → i.location = none
  functions : ∀ id f, m.function? id = some f → f.attachments = ∅
  /-- What has attachments is a marker, and its location is all that is attached to it. -/
  markers : ∀ id i, m.instruction? id = some i → i.attachments ≠ ∅ →
    (∃ line, i.operation = TaggedRecorder.marker line) ∧ i.attachments.keys = ["ori.dbg"]
  named : ∀ name ∈ m.graph.named.keys, name ∈ ["ori.llvm.dbg.cu", "llvm.module.flags"]
  flags : (m.graph.namedNodes "llvm.module.flags").toList.map m.graph.node? ∈
    [[], [some (.tuple [.i32 2, .str "Debug Info Version", .i32 1])]]

/-- What typed recorders write in a module. -/
structure Module.TypedFootprint (m : Module) : Prop where
  instructions : ∀ id i, m.instruction? id = some i → i.attachments = ∅
  functions : ∀ id f, m.function? id = some f → ∀ key ∈ f.attachments.keys, key = "dbg"

namespace Session

variable {s s' : Session} {command : Command} {answer : Answer} {schema : Schema} {n : Nat}

/-! ## Recorders of one schema -/

/-- No recorder is of another schema. -/
def HasOnly (s : Session) (schema : Schema) : Prop :=
  ∀ n r, s.HasRecorder n r → r.schema? = none ∨ r.schema? = some schema

theorem HasOnly.start (workingDirectory : List UInt8) (name : String) :
    (Session.start workingDirectory name).HasOnly schema := by
  rintro n r ⟨slot, hslot, -⟩
  cases hslot

theorem HasOnly.step (h : s.HasOnly schema) (hcommand : command.leavesMetadataTo schema = true)
    (hperform : s.Performs command answer s') : s'.HasOnly schema := by
  intro n r' hr'
  rcases hperform.leadsTo_cases hr' with ⟨r, hr, hleads, -⟩ | ⟨-, k, -, hr⟩ |
    ⟨-, choice, settings, path, event, rfl, hcreate⟩
  · rw [hleads.schema?_eq]
    exact h n r hr
  · exact h k r' hr
  · rw [Recorder.schema?_create hcreate]
    simpa [Command.leavesMetadataTo] using hcommand

theorem HasOnly.ne {other : Schema} (h : s.HasOnly schema) (hne : other ≠ schema)
    {slot : RecorderSlot} (hslot : s.recorders[n]? = some slot) :
    slot.recorder.schema? ≠ some other := by
  intro hother
  rcases h n slot.recorder ⟨slot, hslot, rfl⟩ with hnone | hsome
  · cases hnone.symm.trans hother
  · exact hne (Option.some.inj (hother.symm.trans hsome))

/-! ## Tagged recorders -/

/-- The session is confined to what tagged recorders write, and stays so: no cursor has a
location to give. -/
structure WritesTagged (s : Session) : Prop where
  recorders : s.HasOnly .legacy
  cursors : ∀ (n : Nat) (c : Cursor), s.cursors[n]? = some c → c.location = none
  graph : s.module.graph.OnlyTuples
  locations : ∀ id i, s.module.instruction? id = some i → i.location = none
  markers : ∀ id i, s.module.instruction? id = some i → i.attachments ≠ ∅ →
    (∃ line, i.operation = TaggedRecorder.marker line) ∧ i.attachments.keys = ["ori.dbg"]
  functions : ∀ id f, s.module.function? id = some f → f.attachments = ∅
  named : ∀ name ∈ s.module.graph.named.keys,
    name = TaggedRecorder.unitListName ∨ name = ModuleFlag.listName

namespace WritesTagged

theorem start (workingDirectory : List UInt8) (name : String) :
    (Session.start workingDirectory name).WritesTagged := by
  refine ⟨.start workingDirectory name, ?_, .empty, ?_, ?_, ?_, ?_⟩
  · intro n c hc
    cases hc
  · intro id i hi
    cases hi
  · intro id i hi
    cases hi
  · intro id f hf
    cases hf
  · intro name hname
    cases hname

private theorem cursors_step (h : s.WritesTagged)
    (hcommand : command.leavesMetadataTo .legacy = true)
    (hperform : s.Performs command answer s') :
    ∀ (n : Nat) (c : Cursor), s'.cursors[n]? = some c → c.location = none := by
  intro n c hc
  cases hperform.cursorOrigin hc with
  | kept hold => exact h.cursors n c hold
  | opened block hn => rfl
  | @moved c block hold => exact h.cursors n c hold
  | located location hold => exact Option.isNone_iff_eq_none.mp hcommand
  | marked line hslot hold hmark =>
      rw [Recorder.cursor_markLocation (h.recorders.ne (by decide) hslot) hmark]
      exact h.cursors n _ hold

private theorem graph_step (h : s.WritesTagged)
    (hcommand : command.leavesMetadataTo .legacy = true)
    (hperform : s.Performs command answer s') : s'.module.graph.OnlyTuples := by
  have hschema {n : Nat} {slot : RecorderSlot} (hslot : s.recorders[n]? = some slot) :
      slot.recorder.schema? ≠ some .modern := h.recorders.ne (by decide) hslot
  cases hperform with
  | edit edit hedit => cases hcommand
  | addFlag flag => cases hcommand
  | createRecorder choice settings path hcreate =>
      refine Recorder.onlyTuples_create h.graph ?_ hcreate
      intro hmodern
      rw [Command.leavesMetadataTo, hmodern] at hcommand
      exact absurd hcommand (by decide)
  | markSubprogram function name line hslot hmark =>
      exact Recorder.onlyTuples_markSubprogram h.graph (hschema hslot) hmark
  | markLocation line hslot hc hmark =>
      exact Recorder.onlyTuples_markLocation h.graph (hschema hslot) hmark
  | finalize hslot => exact Recorder.onlyTuples_finalize h.graph (hschema hslot)
  | addSubprogram name linkageName line hslot hexposed hadd =>
      exact Recorder.onlyTuples_addSubprogram? h.graph (hschema hslot) hadd
  | addLocation line hslot hexposed hadd =>
      exact Recorder.onlyTuples_addLocation? h.graph (hschema hslot) hadd
  | _ => exact h.graph

/-- An instruction takes no location from a cursor, and has attachments only as a marker. -/
private theorem instruction_step (h : s.WritesTagged)
    (hcommand : command.leavesMetadataTo .legacy = true)
    (hperform : s.Performs command answer s') {id : InstrId} {i : Instruction}
    (hi : s'.module.instruction? id = some i) :
    i.location = none ∧ (i.attachments ≠ ∅ →
      (∃ line, i.operation = TaggedRecorder.marker line) ∧ i.attachments.keys = ["ori.dbg"]) := by
  cases hperform.instructionOrigin hi with
  | kept hold => exact ⟨h.locations id i hold, h.markers id i hold⟩
  | attached key node hold => cases hcommand
  | emitted operation hc hblock =>
      exact ⟨h.cursors _ _ hc, fun hattached => absurd rfl hattached⟩
  | marker line hslot ht hc hblock hscope hgraph =>
      exact ⟨h.cursors _ _ hc, fun _ => ⟨⟨line, rfl⟩, rfl⟩⟩

private theorem functions_step (h : s.WritesTagged)
    (hcommand : command.leavesMetadataTo .legacy = true)
    (hperform : s.Performs command answer s') :
    ∀ id f, s'.module.function? id = some f → f.attachments = ∅ := by
  intro id f' hf'
  have horigin := hperform.attachmentsOrigin hf'
  generalize f'.attachments = attachments at horigin ⊢
  cases horigin with
  | kept hf => exact h.functions id _ hf
  | declared name signature => rfl
  | attached key node hf => cases hcommand
  | marked n name line hslot ht hf =>
      exact absurd (congrArg Recorder.schema? ht) (h.recorders.ne (by decide) hslot)

private theorem named_step (h : s.WritesTagged)
    (hcommand : command.leavesMetadataTo .legacy = true)
    (hperform : s.Performs command answer s') :
    ∀ name ∈ s'.module.graph.named.keys,
      name = TaggedRecorder.unitListName ∨ name = ModuleFlag.listName := by
  intro name hname
  rcases hperform.named_cases with ⟨other, node, rfl, -⟩ | ⟨flag, rfl, -⟩ |
    ⟨n, slot, rfl, hslot, -, hmodule⟩ | ⟨hsame, -⟩
  · cases hcommand
  · cases hcommand
  · rw [hmodule] at hname
    rcases Recorder.mem_keys_finalize (h.recorders.ne (by decide) hslot) hname with hold | hnew
    · exact h.named name hold
    · exact hnew
  · rw [hsame] at hname
    exact h.named name hname

theorem step (h : s.WritesTagged) (hcommand : command.leavesMetadataTo .legacy = true)
    (hperform : s.Performs command answer s') : s'.WritesTagged where
  recorders := h.recorders.step hcommand hperform
  cursors := h.cursors_step hcommand hperform
  graph := h.graph_step hcommand hperform
  locations := fun _ _ hi => (h.instruction_step hcommand hperform hi).1
  markers := fun _ _ hi => (h.instruction_step hcommand hperform hi).2
  functions := h.functions_step hcommand hperform
  named := h.named_step hcommand hperform

end WritesTagged

/-! ## Typed recorders -/

/-- The session is confined to what typed recorders write, but for locations. -/
structure WritesTyped (s : Session) : Prop where
  recorders : s.HasOnly .modern
  footprint : s.module.TypedFootprint

namespace WritesTyped

theorem start (workingDirectory : List UInt8) (name : String) :
    (Session.start workingDirectory name).WritesTyped := by
  refine ⟨.start workingDirectory name, ?_, ?_⟩
  · intro id i hi
    cases hi
  · intro id f hf
    cases hf

private theorem instructions_step (h : s.WritesTyped)
    (hcommand : command.leavesMetadataTo .modern = true)
    (hperform : s.Performs command answer s') :
    ∀ id i, s'.module.instruction? id = some i → i.attachments = ∅ := by
  intro id i hi
  cases hperform.instructionOrigin hi with
  | kept hold => exact h.footprint.instructions id i hold
  | attached key node hold => cases hcommand
  | emitted operation hc hblock => rfl
  | marker line hslot ht hc hblock hscope hgraph =>
      exact absurd (congrArg Recorder.schema? ht) (h.recorders.ne (by decide) hslot)

private theorem functions_step (h : s.WritesTyped)
    (hcommand : command.leavesMetadataTo .modern = true)
    (hperform : s.Performs command answer s') :
    ∀ id f, s'.module.function? id = some f → ∀ key ∈ f.attachments.keys, key = "dbg" := by
  intro id f' hf'
  have horigin := hperform.attachmentsOrigin hf'
  generalize f'.attachments = attachments at horigin ⊢
  cases horigin with
  | kept hf => exact h.footprint.functions id _ hf
  | declared name signature => exact fun key hkey => absurd hkey List.not_mem_nil
  | attached key node hf => cases hcommand
  | marked n name line hslot ht hf =>
      intro key hkey
      rw [Keyed.keys_insert] at hkey
      split at hkey
      · exact h.footprint.functions id _ hf key hkey
      · rcases List.mem_append.mp hkey with hold | hnew
        · exact h.footprint.functions id _ hf key hold
        · exact List.mem_singleton.mp hnew

theorem step (h : s.WritesTyped) (hcommand : command.leavesMetadataTo .modern = true)
    (hperform : s.Performs command answer s') : s'.WritesTyped :=
  ⟨h.recorders.step hcommand hperform, h.instructions_step hcommand hperform,
    h.functions_step hcommand hperform⟩

/-- A recorder that is made or told something emits nothing. -/
theorem emits_nothing (h : s.WritesTyped) (hcommand : command.isOfRecorder = true)
    (hperform : s.Performs command answer s') :
    s'.module.instructions = s.module.instructions ∧ s'.module.blocks = s.module.blocks := by
  cases hperform with
  | createRecorder choice settings path hcreate =>
      rw [report, Recorder.module_create hcreate]
      exact ⟨rfl, rfl⟩
  | clone hslot hexposed => exact ⟨rfl, rfl⟩
  | markSubprogram function name line hslot hmark =>
      exact ⟨Recorder.instructions_markSubprogram hmark, Recorder.blocks_markSubprogram hmark⟩
  | @markLocation n k slot c c' line r m event hslot hc hmark =>
      change m.instructions = _ ∧ m.blocks = _
      rw [Recorder.module_markLocation (h.recorders.ne (by decide) hslot) hmark]
      exact ⟨rfl, rfl⟩
  | finalize hslot =>
      rw [report, Recorder.module_finalize]
      exact ⟨rfl, rfl⟩
  | addSubprogram name linkageName line hslot hexposed hadd =>
      rw [setRecorder, Recorder.module_addSubprogram? hadd]
      exact ⟨rfl, rfl⟩
  | addLocation line hslot hexposed hadd =>
      rw [Recorder.module_addLocation? hadd]
      exact ⟨rfl, rfl⟩
  | _ => cases hcommand

end WritesTyped

/-! ## Runs -/

/-- The list of flags holds at most the flag of tagged recorders. -/
theorem flags_of_leavesMetadataTo {commands : List Command}
    (hcommands : ∀ command ∈ commands, command.leavesMetadataTo .legacy = true)
    {workingDirectory : List UInt8} {name : String}
    (hrun : ((Session.start workingDirectory name).run commands).2 = s) (h : s.WritesTagged) :
    (s.module.graph.namedNodes ModuleFlag.listName).toList.map s.module.graph.node? ∈
      [[], [some (.tuple TaggedRecorder.debugInfoVersion.operands)]] := by
  have hmetadata : ∀ command ∈ commands, command.leavesMetadata = true :=
    fun command hcommand => Command.leavesMetadata_of_leavesMetadataTo (hcommands command hcommand)
  have hcommits := HoldsCommits.run
    (fun command hcommand => Command.leavesCommits_of_leavesMetadata (hmetadata command hcommand))
    workingDirectory name
  rw [hrun] at hcommits
  have htyped : ∀ n t, ¬ s.HasRecorder n (.typed t) := by
    intro n t ht
    rcases h.recorders n _ ht with hnone | hlegacy
    · cases hnone
    · cases hlegacy
  have hasked := fromRecorders_follow (s := Session.start workingDirectory name)
    fun command hcommand => Command.asksForFlag_of_leavesMetadata (hmetadata command hcommand)
  rw [hcommits.lists.flags.nodes, List.mem_pair]
  rcases eraseDups_of_forall_eq (hcommits.of_no_typed htyped hasked).2 with hnone | hone
  · rw [hnone]
    exact .inl rfl
  · rw [hone]
    exact .inr rfl

/-- Where the metadata is left to recorders of one schema, whichever they are and whatever
they are told, a module is written to only as the schema does it.  Besides, no typed
recorder ever emits an instruction. -/
theorem recorders_keep_to_their_schema (workingDirectory : List UInt8) (name : String)
    (commands : List Command) :
    let s := ((Session.start workingDirectory name).run commands).2
    ((∀ command ∈ commands, command.leavesMetadataTo .legacy = true) →
      s.module.TaggedFootprint) ∧
    ((∀ command ∈ commands, command.leavesMetadataTo .modern = true) →
      s.module.TypedFootprint ∧
      ∀ command answer s', command.isOfRecorder = true → s.perform command = .ok (answer, s') →
        s'.module.instructions = s.module.instructions ∧ s'.module.blocks = s.module.blocks) := by
  intro s
  refine ⟨?_, ?_⟩
  · intro hcommands
    have hwrites : s.WritesTagged :=
      run_keeps_of_forall WritesTagged (fun h hcommand hperform => h.step hcommand hperform)
        (.start workingDirectory name) hcommands
    exact {
      nodes := hwrites.graph
      locations := hwrites.locations
      functions := hwrites.functions
      markers := hwrites.markers
      named := by
        intro name hname
        rw [List.mem_pair]
        exact hwrites.named name hname
      flags := flags_of_leavesMetadataTo hcommands rfl hwrites }
  · intro hcommands
    have hwrites : s.WritesTyped :=
      run_keeps_of_forall WritesTyped (fun h hcommand hperform => h.step hcommand hperform)
        (.start workingDirectory name) hcommands
    refine ⟨hwrites.footprint, ?_⟩
    intro command answer s' hcommand hperform
    exact hwrites.emits_nothing hcommand (performs_of_ok hperform)

/-- One recorder of the schema marks a function and a line in it and is finalized. -/
def soleRecorderRun (schema : Schema) : List Command :=
  [.addFunction "main" ⟨.void, []⟩, .appendBlock ⟨0⟩ "entry", .openCursor ⟨0⟩,
    .createRecorder (.fixed schema) {} [0x2F, 0x61], .recorder 0 (.markSubprogram ⟨0⟩ "main" 1),
    .recorder 0 (.markLocation 0 2), .recorder 0 .finalize]

/-- The tagged recorder leaves a marker with its location attached, and the typed one attaches
its subprogram to the function. -/
theorem recorders_keep_to_their_schema_of_sole :
    (∀ command ∈ soleRecorderRun .legacy, command.leavesMetadataTo .legacy = true) ∧
    (∃ i location, ((Session.start [] "m").run (soleRecorderRun .legacy)).2.module.instruction?
        ⟨0⟩ = some i ∧ i.attachments.find? "ori.dbg" = some location ∧ i.location = none ∧
      (∃ line, i.operation = TaggedRecorder.marker line) ∧ i.attachments.keys = ["ori.dbg"]) ∧
    (∀ command ∈ soleRecorderRun .modern, command.leavesMetadataTo .modern = true) ∧
    ∃ f subprogram, ((Session.start [] "m").run (soleRecorderRun .modern)).2.module.function?
        ⟨0⟩ = some f ∧ f.attachments.find? "dbg" = some subprogram ∧
      ∀ key ∈ f.attachments.keys, key = "dbg" := by
  have htagged : ∀ command ∈ soleRecorderRun .legacy, command.leavesMetadataTo .legacy = true := by
    decide
  have htyped : ∀ command ∈ soleRecorderRun .modern, command.leavesMetadataTo .modern = true := by
    decide
  let declared := startDeclaring [] "m" "main" ⟨.void, []⟩
  have hdeclare := perform_start_addFunction [] "m" "main" ⟨.void, []⟩
  have hrun (schema : Schema) : ((Session.start [] "m").run (soleRecorderRun schema)).2 =
      (declared.run (soleRecorderRun schema).tail).2 := run_cons hdeclare _
  have hfootprint := (recorders_keep_to_their_schema [] "m" (soleRecorderRun .legacy)).1 htagged
  have hfootprint' := (recorders_keep_to_their_schema [] "m" (soleRecorderRun .modern)).2 htyped
  rw [hrun] at hfootprint hfootprint'
  rw [hrun, hrun]
  refine ⟨htagged, ?_, htyped, ?_⟩
  · have hmarker : (((declared.run (soleRecorderRun .legacy).tail).2.module.instruction?
        ⟨0⟩).bind (·.attachments.find? "ori.dbg")).isSome = true := by decide +kernel
    obtain ⟨location, hlocation⟩ := Option.isSome_iff_exists.mp hmarker
    obtain ⟨i, hi, hlocation⟩ := Option.bind_eq_some_iff.mp hlocation
    have hattached : i.attachments ≠ ∅ := by
      intro hnone
      rw [hnone] at hlocation
      cases hlocation
    obtain ⟨hoperation, hkeys⟩ := hfootprint.markers ⟨0⟩ i hi hattached
    exact ⟨i, location, hi, hlocation, hfootprint.locations ⟨0⟩ i hi, hoperation, hkeys⟩
  · have hfunction : (((declared.run (soleRecorderRun .modern).tail).2.module.function?
        ⟨0⟩).bind (·.attachments.find? "dbg")).isSome = true := by decide +kernel
    obtain ⟨subprogram, hsubprogram⟩ := Option.isSome_iff_exists.mp hfunction
    obtain ⟨f, hf, hsubprogram⟩ := Option.bind_eq_some_iff.mp hsubprogram
    exact ⟨f, subprogram, hf, hsubprogram, hfootprint'.1.functions ⟨0⟩ f hf⟩

end Session

end DebugMetadata

import DebugMetadata.Proofs.Attachments.Log
import DebugMetadata.Proofs.Printing.Numbers

/-!
# Attachment keys

A function or an instruction has every key at most once, since a node that is attached takes
the place of the one that was attached under its key before.  The location of an instruction
is kept beside its attachments and printed before them, under a key that nodes can be attached
under as well.  So an instruction that has a location and an attachment under that key is
printed with the key twice, and nothing else is.
-/

namespace DebugMetadata

variable {α : Type} {t : Keyed α}

theorem Keyed.mem_keys_insert {key k : String} {value : α} :
    k ∈ (t.insert key value).keys ↔ k = key ∨ k ∈ t.keys := by
  rw [keys_insert]
  split
  next hkey => exact ⟨.inr, fun h => h.elim (fun heq => heq ▸ hkey) id⟩
  next => rw [List.mem_append, List.mem_singleton, or_comm]

theorem Keyed.nodup_keys_insert (h : t.keys.Nodup) (key : String) (value : α) :
    (t.insert key value).keys.Nodup := by
  rw [keys_insert]
  split
  next => exact h
  next hkey =>
    rw [← List.concat_eq_append]
    exact List.Nodup.concat hkey h

/-! ## Functions -/

namespace Module

variable {m m' : Module}

/-- No function has a key twice. -/
def FunctionKeysDiffer (m : Module) : Prop :=
  ∀ id f, m.function? id = some f → f.attachments.keys.Nodup

theorem FunctionKeysDiffer.step (h : m.FunctionKeysDiffer) (hstep : m.Step m') :
    m'.FunctionKeysDiffer := by
  intro id f' hf'
  cases hstep with
  | filename | instruction | attachToInstruction | graph => exact h id f' hf'
  | function name signature =>
      change (m.functions.push _)[id.index]? = some f' at hf'
      rw [Array.getElem?_push] at hf'
      split at hf'
      · cases hf'
        exact List.nodup_nil
      · exact h id f' hf'
  | @block function label hlt =>
      change (m.functions.modify function.index _)[id.index]? = some f' at hf'
      rw [Array.getElem?_modify] at hf'
      split at hf'
      · obtain ⟨f, hf, rfl⟩ := Option.map_eq_some_iff.mp hf'
        exact h id f hf
      · exact h id f' hf'
  | attachToFunction function key node =>
      rw [function?_attachToFunction] at hf'
      split at hf'
      · obtain ⟨f, hf, rfl⟩ := Option.map_eq_some_iff.mp hf'
        exact Keyed.nodup_keys_insert (h id f hf) key node
      · exact h id f' hf'

theorem FunctionKeysDiffer.steps (h : m.FunctionKeysDiffer) (hsteps : m.Steps m') :
    m'.FunctionKeysDiffer := by
  induction hsteps with
  | refl => exact h
  | tail _ hstep ih => exact ih.step hstep

theorem functionKeysDiffer_empty (name : String) : ({ name } : Module).FunctionKeysDiffer :=
  fun _ _ hf => nomatch hf

end Module

/-! ## Instructions -/

/-- The command attaches a node to the instruction under the key. -/
def Command.attaches (id : InstrId) (key : String) : Command → Bool
  | .attachToInstruction instr k _ => instr == id && k == key
  | _ => false

theorem Command.attaches_iff {command : Command} {id : InstrId} {key : String} :
    command.attaches id key = true ↔ ∃ node, command = .attachToInstruction id key node := by
  cases command with
  | attachToInstruction instr k node => simp [attaches]
  | _ => exact ⟨nofun, nofun⟩

namespace Session

variable {s s' : Session} {command : Command} {answer : Answer} {id : InstrId}
  {i i' : Instruction} {key : String}

/-- The attachments that an instruction can have after a command. -/
inductive GivesAttachments (s : Session) (command : Command) (id : InstrId) :
    Attachments → Prop where
  | emitted : GivesAttachments s command id ∅
  | marker (location : NodeId) :
    GivesAttachments s command id ⟨[(TaggedRecorder.locationKey, location)]⟩
  | kept {i : Instruction} (hi : s.module.instruction? id = some i) :
    GivesAttachments s command id i.attachments
  | attached {i : Instruction} {key : String} {node : NodeId}
      (hi : s.module.instruction? id = some i)
      (hcommand : command.attaches id key = true) :
    GivesAttachments s command id (i.attachments.insert key node)

theorem GivesAttachments.of_graph {m : Module} (h : m = { s.module with graph := m.graph })
    (hi' : m.instruction? id = some i') : s.GivesAttachments command id i'.attachments := by
  rw [h] at hi'
  exact .kept hi'

theorem GivesAttachments.of_instructions_eq {m : Module}
    (h : m.instructions = s.module.instructions) (hi' : m.instruction? id = some i') :
    s.GivesAttachments command id i'.attachments := by
  rw [Module.instruction?, h] at hi'
  exact .kept hi'

theorem Performs.givesAttachments (h : s.Performs command answer s')
    (hi' : s'.module.instruction? id = some i') :
    s.GivesAttachments command id i'.attachments := by
  cases h with
  | setSourceFilename | addFunction | appendBlock | edit | attachToFunction | addFlag |
    openCursor | moveTo | locate | clone => exact .kept hi'
  | @attachToInstruction instr i key node hi =>
      have hi₁ := (s.module.instruction?_attachToInstruction instr id key node).symm.trans hi'
      split at hi₁
      next hid =>
        obtain ⟨old, hold, rfl⟩ := Option.map_eq_some_iff.mp hi₁
        exact .attached hold (Command.attaches_iff.mpr ⟨node, by rw [hid]⟩)
      next => exact .kept hi₁
  | emit operation hc hblock =>
      rcases Module.instruction?_push_cases hi' with ⟨-, rfl⟩ | hi
      · exact .emitted
      · exact .kept hi
  | createRecorder choice settings path hcreate =>
      exact .of_graph (Recorder.module_create hcreate) hi'
  | markSubprogram function name line hslot hmark =>
      exact .of_instructions_eq (Recorder.instructions_markSubprogram hmark) hi'
  | markLocation line hslot hc hmark =>
      rcases Recorder.markLocation_cases hmark with ⟨-, -, -, rfl, -⟩ |
        ⟨t, scope, -, -, -, -, rfl, -⟩ | ⟨t, -, -, -, -, rfl, -⟩ |
        ⟨t, scope, -, -, -, -, -, -, rfl, -⟩
      · exact .kept hi'
      · exact .kept hi'
      · exact .kept hi'
      · rcases Module.instruction?_push_cases hi' with ⟨-, rfl⟩ | hi
        · exact .marker _
        · exact .kept hi
  | finalize hslot =>
      exact .of_graph (Recorder.module_finalize _ _) hi'
  | addSubprogram name linkageName line hslot hexposed hadd =>
      exact .of_graph (Recorder.module_addSubprogram? hadd) hi'
  | addLocation line hslot hexposed hadd =>
      exact .of_graph (Recorder.module_addLocation? hadd) hi'

/-- No instruction has a key twice among its attachments. -/
theorem nodup_keys_run (commands : List Command) (workingDirectory : List UInt8) (name : String)
    (hi : ((start workingDirectory name).run commands).2.module.instruction? id = some i) :
    i.attachments.keys.Nodup := by
  have hexplains := AttachmentLog.explains_run workingDirectory name commands
  exact (hexplains.shows (.instruction id) _ (congrArg (Option.map _) hi)).nodup_keys

/-- An instruction has a key that markers do not have only if a node was attached to it under
the key. -/
theorem exists_attach_of_mem_keys {commands : List Command} {workingDirectory : List UInt8}
    {name : String} (hkey : key ≠ TaggedRecorder.locationKey)
    (hi : ((start workingDirectory name).run commands).2.module.instruction? id = some i)
    (hmem : key ∈ i.attachments.keys) :
    ∃ node, .attachToInstruction id key node ∈ commands := by
  by_contra hnone
  have hcommands : ∀ command ∈ commands, (!command.attaches id key) = true := by
    intro command hcommand
    rw [Bool.not_eq_true', ← Bool.not_eq_true, Command.attaches_iff]
    rintro ⟨node, rfl⟩
    exact hnone ⟨node, hcommand⟩
  refine run_keeps_of_forall (fun s => ∀ i, s.module.instruction? id = some i →
    key ∉ i.attachments.keys) ?_ (fun _ hi => by cases hi) hcommands i hi hmem
  intro s s' command answer h hcommand hperform i' hi'
  have hgives := hperform.givesAttachments hi'
  generalize i'.attachments = attachments at hgives
  cases hgives with
  | emitted => exact List.not_mem_nil
  | marker location => exact fun hmem => hkey (List.mem_singleton.mp hmem)
  | kept hi => exact h _ hi
  | @attached i k node hi hattaches =>
      rw [Keyed.mem_keys_insert]
      rintro (rfl | hmem)
      · rw [hattaches] at hcommand
        cases hcommand
      · exact h i hi hmem

end Session

/-! ## Printed keys -/

open Assembly

theorem Assembly.nodup_slots_iff {i : Instruction} (h : i.attachments.keys.Nodup) :
    ((slots i).map Prod.fst).Nodup ↔ i.location = none ∨ "dbg" ∉ i.attachments.keys := by
  unfold slots
  cases i.location with
  | none => exact ⟨fun _ => .inl rfl, fun _ => h⟩
  | some location =>
      change ("dbg" :: i.attachments.keys).Nodup ↔ _
      rw [List.nodup_cons]
      exact ⟨fun hnodup => .inr hnodup.1, fun hor => ⟨hor.resolve_left nofun, h⟩⟩

/-- After any run no function is printed with a key twice, and an instruction is only if it
has a location and a node that was attached to it under the key of locations. -/
theorem Session.printed_keys_differ (workingDirectory : List UInt8) (name : String)
    (commands : List Command) :
    let m := ((start workingDirectory name).run commands).2.module
    (∀ id f, m.function? id = some f →
      (∃ start, header f = start ++ attachmentsText " " f.attachments.entries) ∧
      (f.attachments.entries.map Prod.fst).Nodup) ∧
    ∀ id i, m.instruction? id = some i →
      (∀ n line, instruction? m n id = some line →
        ∃ operation, line = operation ++ attachmentsText ", " (slots i)) ∧
      (((slots i).map Prod.fst).Nodup ↔ i.location = none ∨ "dbg" ∉ i.attachments.keys) ∧
      ("dbg" ∈ i.attachments.keys → ∃ node, .attachToInstruction id "dbg" node ∈ commands) := by
  intro m
  have hfunctions : m.FunctionKeysDiffer :=
    (Module.functionKeysDiffer_empty name).steps (steps_run (start workingDirectory name) commands)
  refine ⟨fun id f hf => ⟨exists_header f, hfunctions id f hf⟩, fun id i hi => ⟨?_,
    nodup_slots_iff (nodup_keys_run commands workingDirectory name hi),
    exists_attach_of_mem_keys (by decide) hi⟩⟩
  intro n line hline
  obtain ⟨i', operation, hi', hline⟩ := isInstructionLine_instruction? hline
  rw [hi] at hi'
  cases hi'
  exact ⟨operation, hline⟩

/-- An instruction takes the location of its cursor, and then another node is attached to it
under the key of locations. -/
def locatedTwice : List Command :=
  [.addFunction "f" ⟨.void, []⟩, .appendBlock ⟨0⟩ "entry",
    .edit (.add (.debug ⟨.location, []⟩ true)), .edit (.add (.debug ⟨.location, []⟩ true)),
    .openCursor ⟨0⟩, .cursor 0 (.locate (some ⟨0⟩)), .cursor 0 (.emit (.ret none)),
    .attachToInstruction ⟨0⟩ "dbg" ⟨1⟩]

/-- Its line ends with the key twice. -/
example : ((Session.startDeclaring [] "m" "f" ⟨.void, []⟩).run
    locatedTwice.tail).2.module.assembly? =
    some ("; ModuleID = 'm'\n\ndefine void @f() \x7b\nentry:\n" ++
      "  ret void, !dbg !0, !dbg !1\n\x7d\n\n" ++
      "!0 = distinct !DILocation()\n!1 = distinct !DILocation()\n") := by
  decide +kernel

/-- Not every instruction of a module that is printed has each key once. -/
theorem Session.not_forall_printed_keys_differ :
    ¬ ∀ (workingDirectory : List UInt8) (name : String) (commands : List Command) (text : String),
      ((start workingDirectory name).run commands).2.module.assembly? = some text →
      ∀ id i, ((start workingDirectory name).run commands).2.module.instruction? id = some i →
        ((slots i).map Prod.fst).Nodup := by
  intro h
  have hrun : ((start [] "m").run locatedTwice).2 =
      ((startDeclaring [] "m" "f" ⟨.void, []⟩).run locatedTwice.tail).2 :=
    run_cons (perform_start_addFunction [] "m" "f" ⟨.void, []⟩) _
  have hprinted : ((startDeclaring [] "m" "f" ⟨.void, []⟩).run
      locatedTwice.tail).2.module.assembly?.isSome := by decide +kernel
  obtain ⟨text, htext⟩ := Option.isSome_iff_exists.mp hprinted
  have hi : ((startDeclaring [] "m" "f" ⟨.void, []⟩).run
      locatedTwice.tail).2.module.instruction? ⟨0⟩ = some {
        operation := .ret none
        block := ⟨0⟩
        location := some ⟨0⟩
        attachments := ⟨[("dbg", ⟨1⟩)]⟩ } := by decide +kernel
  rw [← hrun] at htext hi
  exact absurd (h [] "m" locatedTwice text htext ⟨0⟩ _ hi) (by decide)

end DebugMetadata

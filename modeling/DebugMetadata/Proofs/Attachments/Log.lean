import DebugMetadata.Proofs.Isolation.Recorders
import DebugMetadata.Proofs.Keyed

/-!
# What was attached

Nodes are attached to functions and instructions by calls: those that are made by hand, the
one with which a typed recorder attaches a subprogram to its function, and the one with which
a tagged recorder attaches a location to its marker.  The log of these calls tells the
attachments of every function and every instruction, whatever else is done in between.
-/

namespace DebugMetadata

/-- What nodes are attached to. -/
inductive Target where
  | function (id : FunctionId)
  | instruction (id : InstrId)
  deriving DecidableEq, Repr

/-- The call that attaches a node to a target under a key. -/
def Command.attach : Target → String → NodeId → Command
  | .function id, key, node => .attachToFunction id key node
  | .instruction id, key, node => .attachToInstruction id key node

/-- Calls that attached a node to a target under a key, in order. -/
abbrev AttachmentLog := List (Target × String × NodeId)

def Function.bare (f : Function) : Function := { f with attachments := ∅ }

def Instruction.bare (i : Instruction) : Instruction := { i with attachments := ∅ }

namespace Module

/-- The attachments of a target that exists. -/
def attachments? (m : Module) : Target → Option Attachments
  | .function id => (m.function? id).map (·.attachments)
  | .instruction id => (m.instruction? id).map (·.attachments)

def attach (m : Module) : Target → String → NodeId → Module
  | .function id, key, node => m.attachToFunction id key node
  | .instruction id, key, node => m.attachToInstruction id key node

/-- The module without attachments. -/
def bare (m : Module) : Module :=
  { m with
    functions := m.functions.map Function.bare
    instructions := m.instructions.map Instruction.bare }

/-- The second module is the first one with a node attached to a target under a key, and no
other key, target, location or node is changed. -/
structure AttachesOnly (m : Module) (target : Target) (key : String) (node : NodeId)
    (m' : Module) : Prop where
  attached : ∀ attachments, m.attachments? target = some attachments →
    ∃ attachments', m'.attachments? target = some attachments' ∧
      attachments'.find? key = some node ∧
      (∀ other, other ≠ key → attachments'.find? other = attachments.find? other) ∧
      attachments'.keys = if key ∈ attachments.keys then attachments.keys
        else attachments.keys ++ [key]
  others : ∀ other, other ≠ target → m'.attachments? other = m.attachments? other
  locations : ∀ id,
    (m'.instruction? id).map (·.location) = (m.instruction? id).map (·.location)
  graph : m'.graph = m.graph
  bare : m'.bare = m.bare

/-- Every target has its attachments still, and a new one has none. -/
def KeepsAttachments (m m' : Module) : Prop :=
  ∀ target, m'.attachments? target = m.attachments? target ∨
    (m.attachments? target = none ∧ m'.attachments? target = some ∅)

/-- All that becomes of the attachments: one call attaches a node to a target that exists, or
none does. -/
inductive Attaches (m m' : Module) : Option (Target × String × NodeId) → Prop where
  | nothing (h : m.KeepsAttachments m') : m.Attaches m' none
  | node {m₁ : Module} {target : Target} {key : String} {node : NodeId}
      (h : m.KeepsAttachments m₁) (hexists : (m₁.attachments? target).isSome)
      (hm' : m' = m₁.attach target key node) :
    m.Attaches m' (some (target, key, node))

end Module

/-- What a recorder attaches when it is told something.  A typed one attaches the subprogram
that it registers for a function, and a tagged one the location that it creates for a line. -/
def Recorder.attachment? (r : Recorder) (m : Module) :
    RecorderCommand → Option (Target × String × NodeId)
  | .markSubprogram function name line =>
    match r with
    | .typed _ =>
      (r.registration? m (.markSubprogram function name line)).map fun registration =>
        (.function function, TypedRecorder.subprogramKey, registration.id)
    | _ => none
  | .markLocation cursor line =>
    match r with
    | .tagged _ =>
      (r.location? m (.markLocation cursor line)).map fun location =>
        (.instruction ⟨m.instructions.size⟩, TaggedRecorder.locationKey, location)
    | _ => none
  | _ => none

namespace Session

/-- What a command that succeeds attaches, by itself or through a recorder. -/
def attachment? (s : Session) : Command → Option (Target × String × NodeId)
  | .attachToFunction function key node => some (.function function, key, node)
  | .attachToInstruction instr key node => some (.instruction instr, key, node)
  | .recorder n command =>
    s.recorders[n]?.bind fun slot => slot.recorder.attachment? s.module command
  | _ => none

def attachmentLogAfter (s : Session) (log : AttachmentLog) (command : Command) : AttachmentLog :=
  log ++ (s.attachment? command).toList

end Session

/-! ## Single calls -/

namespace Module

variable {m m' : Module} {target : Target} {attachments : Attachments}

theorem attachments?_attach (m : Module) (target other : Target) (key : String) (node : NodeId) :
    (m.attach target key node).attachments? other =
      if other = target then (m.attachments? other).map (·.insert key node)
      else m.attachments? other := by
  cases target with
  | function id =>
      cases other with
      | function other =>
          simp only [attachments?, attach, function?_attachToFunction, Target.function.injEq]
          split
          · rw [Option.map_map, Option.map_map]
            rfl
          · rfl
      | instruction other => rfl
  | instruction id =>
      cases other with
      | function other => rfl
      | instruction other =>
          simp only [attachments?, attach, instruction?_attachToInstruction,
            Target.instruction.injEq]
          split
          · rw [Option.map_map, Option.map_map]
            rfl
          · rfl

theorem bare_attach (m : Module) (target : Target) (key : String) (node : NodeId) :
    (m.attach target key node).bare = m.bare := by
  cases target with
  | function id =>
      simp only [attach, attachToFunction, bare]
      rw [map_modify_of_eq _ _ fun f => show (f.attach key node).bare = f.bare from rfl]
  | instruction id =>
      simp only [attach, attachToInstruction, bare]
      rw [map_modify_of_eq _ _ fun i => show (i.attach key node).bare = i.bare from rfl]

theorem location_attach (m : Module) (target : Target) (key : String) (node : NodeId)
    (id : InstrId) :
    ((m.attach target key node).instruction? id).map (·.location) =
      (m.instruction? id).map (·.location) := by
  cases target with
  | function function => rfl
  | instruction instr =>
      rw [attach, instruction?_attachToInstruction]
      split
      · rw [Option.map_map]
        rfl
      · rfl

theorem graph_attach (m : Module) (target : Target) (key : String) (node : NodeId) :
    (m.attach target key node).graph = m.graph := by
  cases target <;> rfl

/-- A call attaches the node in the place of the one that was under its key, or else after all
others, and leaves everything else as it is. -/
theorem attachesOnly_attach (m : Module) (target : Target) (key : String) (node : NodeId) :
    m.AttachesOnly target key node (m.attach target key node) where
  attached := by
    intro attachments hattachments
    rw [attachments?_attach, if_pos rfl, hattachments]
    refine ⟨_, rfl, ?_, ?_, attachments.keys_insert key node⟩
    · rw [Keyed.find?_insert, if_pos rfl]
    · intro other hother
      rw [Keyed.find?_insert, if_neg hother]
  others := by
    intro other hother
    rw [attachments?_attach, if_neg hother]
  locations := m.location_attach target key node
  graph := m.graph_attach target key node
  bare := m.bare_attach target key node

namespace KeepsAttachments

theorem refl (m : Module) : m.KeepsAttachments m := fun _ => .inl rfl

theorem of_eq (hfunctions : m'.functions = m.functions)
    (hinstructions : m'.instructions = m.instructions) : m.KeepsAttachments m' := by
  intro target
  cases target with
  | function id => exact .inl (by rw [attachments?, function?, hfunctions]; rfl)
  | instruction id => exact .inl (by rw [attachments?, instruction?, hinstructions]; rfl)

theorem of_graph (h : m' = { m with graph := m'.graph }) : m.KeepsAttachments m' := by
  rw [h]
  exact .of_eq rfl rfl

theorem pushFunction (m : Module) (name : String) (signature : Signature) :
    m.KeepsAttachments (m.pushFunction name signature) := by
  intro target
  cases target with
  | function id =>
      simp only [attachments?, function?, Module.pushFunction, Array.getElem?_push]
      split
      next hid => exact .inr ⟨by rw [hid, Array.getElem?_eq_none (Nat.le_refl _)]; rfl, rfl⟩
      next => exact .inl rfl
  | instruction id => exact .inl rfl

theorem pushBlock (m : Module) (function : FunctionId) (label : String) :
    m.KeepsAttachments (m.pushBlock function label) := by
  intro target
  cases target with
  | function id =>
      refine .inl ?_
      simp only [attachments?, function?, Module.pushBlock, Array.getElem?_modify]
      split
      · rw [Option.map_map]
        rfl
      · rfl
  | instruction id => exact .inl rfl

theorem pushInstruction (m : Module) {i : Instruction} (hi : i.attachments = ∅) :
    m.KeepsAttachments (m.pushInstruction i) := by
  intro target
  cases target with
  | function id => exact .inl rfl
  | instruction id =>
      simp only [attachments?, instruction?, Module.pushInstruction, Array.getElem?_push]
      split
      next hid =>
        refine .inr ⟨by rw [hid, Array.getElem?_eq_none (Nat.le_refl _)]; rfl, ?_⟩
        rw [Option.map_some, hi]
      next => exact .inl rfl

end KeepsAttachments

namespace Attaches

theorem attach (target : Target) (h : m.attachments? target = some attachments) (key : String)
    (node : NodeId) :
    m.Attaches (m.attach target key node) (some (target, key, node)) :=
  .node (.refl m) (Option.isSome_of_eq_some h) rfl

/-- An instruction is emitted without attachments, and then a node is attached to it. -/
theorem pushInstruction (m : Module) {i : Instruction} (hi : i.attachments = ∅) (key : String)
    (node : NodeId) :
    m.Attaches (m.pushInstruction (i.attach key node))
      (some (.instruction ⟨m.instructions.size⟩, key, node)) := by
  refine .node (.pushInstruction m hi) ?_ (m.attachToInstruction_pushInstruction i key node).symm
  rw [attachments?, instruction?_pushInstruction_size]
  rfl

theorem of_graph (graph : Graph) {attachment : Option (Target × String × NodeId)}
    (h : { m with graph }.Attaches m' attachment) : m.Attaches m' attachment := by
  cases h with
  | nothing h => exact .nothing h
  | node h hexists hm' => exact .node h hexists hm'

end Attaches

end Module

/-! ## Commands -/

namespace Recorder

variable {r r' : Recorder} {m m' : Module} {function : FunctionId} {name : String} {line : Nat}
  {event : Option Event}

theorem attaches_markSubprogram
    (h : r.markSubprogram m function name line = .ok (r', m', event)) :
    m.Attaches m' (r.attachment? m (.markSubprogram function name line)) := by
  rcases markSubprogram_cases h with
    ⟨rfl, -, rfl, -⟩ | ⟨t, f, rfl, hf, -, hm', -⟩ | ⟨t, f, rfl, -, -, hm', -⟩
  · exact .nothing (.refl m')
  · have hattachment : (Recorder.typed t).attachment? m (.markSubprogram function name line) =
        some (.function function, TypedRecorder.subprogramKey,
          (t.addSubprogram name f.name line m.graph).1) := by
      simp only [attachment?, registration?, hf, addSubprogram?_typed]
      rfl
    let graph := (t.addSubprogram name f.name line m.graph).2.2
    have hfound : { m with graph }.attachments? (.function function) = some f.attachments :=
      congrArg (Option.map _) hf
    rw [hattachment, hm']
    exact .of_graph graph (.attach (.function function) hfound _ _)
  · rw [hm', TaggedRecorder.module_addSubprogram]
    exact .nothing (.of_eq rfl rfl)

theorem attaches_markLocation {c c' : Cursor} (k : Nat)
    (h : r.markLocation m c line = .ok (r', c', m', event)) :
    m.Attaches m' (r.attachment? m (.markLocation k line)) := by
  rcases markLocation_cases h with ⟨rfl, -, -, rfl, -⟩ | ⟨t, scope, rfl, -, -, -, rfl, -⟩ |
    ⟨t, rfl, hline, -, -, rfl, -⟩ | ⟨t, scope, rfl, hline, hactive, -, -, -, rfl, -⟩
  · exact .nothing (.refl m')
  · exact .nothing (.of_eq rfl rfl)
  · have hattachment : (Recorder.tagged t).attachment? m' (.markLocation k line) = none := by
      simp only [attachment?, location?, lastLine?, hline, if_true, Option.map_none]
    rw [hattachment]
    exact .nothing (.refl m')
  · have hattachment : (Recorder.tagged t).attachment? m (.markLocation k line) =
        some (.instruction ⟨m.instructions.size⟩, TaggedRecorder.locationKey,
          (m.graph.addTuple (TaggedRecorder.locationOperands line scope)).1) := by
      simp only [attachment?, location?, lastLine?, if_neg hline, newLocation?_tagged hactive,
        Option.map_some]
    rw [hattachment]
    let emitted : Instruction :=
      { operation := TaggedRecorder.marker line, block := c.block, location := c.location }
    have hemitted : emitted.attachments = ∅ := rfl
    exact .of_graph (m.graph.addTuple (TaggedRecorder.locationOperands line scope)).2
      (.pushInstruction _ hemitted _ _)

end Recorder

namespace Session

variable {s s' : Session} {command : Command} {answer : Answer}

theorem attachment?_recorder {n : Nat} {slot : RecorderSlot}
    (hslot : s.recorders[n]? = some slot) (command : RecorderCommand) :
    s.attachment? (.recorder n command) = slot.recorder.attachment? s.module command := by
  rw [attachment?, hslot, Option.bind_some]

/-- A command does to the attachments what its call does, if it makes one. -/
theorem Performs.attaches (h : s.Performs command answer s') :
    s.module.Attaches s'.module (s.attachment? command) := by
  cases h with
  | setSourceFilename | edit | addFlag | openCursor | moveTo | locate =>
      exact .nothing (.of_eq rfl rfl)
  | addFunction name signature hfresh => exact .nothing (.pushFunction s.module name signature)
  | appendBlock function label hlt => exact .nothing (.pushBlock s.module function label)
  | emit operation hc hblock => exact .nothing (.pushInstruction s.module rfl)
  | attachToFunction key node hf =>
      exact .attach (.function _) (congrArg (Option.map _) hf) key node
  | attachToInstruction key node hi =>
      exact .attach (.instruction _) (congrArg (Option.map _) hi) key node
  | createRecorder choice settings path hcreate =>
      exact .nothing (.of_graph (Recorder.module_create hcreate))
  | clone hslot hexposed =>
      rw [attachment?_recorder hslot]
      exact .nothing (.refl s.module)
  | markSubprogram function name line hslot hmark =>
      rw [attachment?_recorder hslot]
      exact Recorder.attaches_markSubprogram hmark
  | markLocation line hslot hc hmark =>
      rw [attachment?_recorder hslot]
      exact Recorder.attaches_markLocation _ hmark
  | finalize hslot =>
      rw [attachment?_recorder hslot]
      exact .nothing (.of_graph (Recorder.module_finalize _ _))
  | addSubprogram name linkageName line hslot hexposed hadd =>
      rw [attachment?_recorder hslot]
      exact .nothing (.of_graph (Recorder.module_addSubprogram? hadd))
  | addLocation line hslot hexposed hadd =>
      rw [attachment?_recorder hslot]
      exact .nothing (.of_graph (Recorder.module_addLocation? hadd))

/-- A call by hand succeeds exactly where its target exists, and then does nothing else. -/
theorem perform_attach (s : Session) (target : Target) (key : String) (node : NodeId) :
    s.perform (.attach target key node) =
      if (s.module.attachments? target).isSome then
        .ok (.done, { s with module := s.module.attach target key node })
      else .error .dangling := by
  cases target with
  | function id =>
      rw [Command.attach, perform, Module.attachments?, Option.isSome_map]
      cases s.module.function? id <;> rfl
  | instruction id =>
      rw [Command.attach, perform, Module.attachments?, Option.isSome_map]
      cases s.module.instruction? id <;> rfl

end Session

/-! ## Runs -/

namespace AttachmentLog

variable {log : AttachmentLog} {m m' : Module} {target : Target}
  {attachment : Option (Target × String × NodeId)}

/-- Every target of a call exists, and the calls with a target tell its attachments: the keys in
the order of their first use, and the last node under each of them. -/
structure Explains (log : AttachmentLog) (m : Module) : Prop where
  exist : ∀ call ∈ log, (m.attachments? call.1).isSome
  shows : ∀ target attachments, m.attachments? target = some attachments →
    attachments.Shows List.getLast? (valuesAt target log)

namespace Explains

theorem empty (name : String) : Explains [] { name } where
  exist _ hcall := by cases hcall
  shows target attachments h := by
    cases target <;> cases h

theorem keeps (h : log.Explains m) (hkeeps : m.KeepsAttachments m') : log.Explains m' where
  exist := by
    intro call hcall
    rcases hkeeps call.1 with hsame | ⟨-, hnew⟩
    · rw [hsame]
      exact h.exist call hcall
    · rw [hnew]
      rfl
  shows := by
    intro target attachments hattachments
    rcases hkeeps target with hsame | ⟨hnone, hnew⟩
    · exact h.shows target attachments (hsame ▸ hattachments)
    · cases hnew.symm.trans hattachments
      -- Nothing was attached to a target that did not exist.
      have hnothing : valuesAt target log = [] := by
        rw [valuesAt_eq_nil_iff, List.mem_map]
        rintro ⟨call, hcall, rfl⟩
        have hexists := h.exist call hcall
        rw [hnone] at hexists
        cases hexists
      rw [hnothing]
      exact .empty rfl

theorem attach (h : log.Explains m) (hexists : (m.attachments? target).isSome) (key : String)
    (node : NodeId) : Explains (log ++ [(target, key, node)]) (m.attach target key node) where
  exist := by
    intro call hcall
    rw [Module.attachments?_attach]
    have hbefore : (m.attachments? call.1).isSome := by
      rcases List.mem_append.mp hcall with hold | hlast
      · exact h.exist call hold
      · rw [List.mem_singleton.mp hlast]
        exact hexists
    split
    · rw [Option.isSome_map]
      exact hbefore
    · exact hbefore
  shows := by
    intro other attachments hattachments
    rw [Module.attachments?_attach] at hattachments
    rw [valuesAt_concat]
    by_cases hother : other = target
    · rw [if_pos hother] at hattachments
      obtain ⟨old, hold, rfl⟩ := Option.map_eq_some_iff.mp hattachments
      rw [if_pos hother.symm]
      exact (h.shows other old hold).alter fun values => List.getLast?_concat
    · rw [if_neg hother] at hattachments
      rw [if_neg (Ne.symm hother)]
      exact h.shows other attachments hattachments

theorem step (h : log.Explains m) (hattaches : m.Attaches m' attachment) :
    Explains (log ++ attachment.toList) m' := by
  cases hattaches with
  | nothing hkeeps =>
      rw [Option.toList_none, List.append_nil]
      exact h.keeps hkeeps
  | node hkeeps hexists hm' =>
      rw [hm']
      exact (h.keeps hkeeps).attach hexists _ _

end Explains

theorem explains_run (workingDirectory : List UInt8) (name : String) (commands : List Command) :
    Explains ((Session.start workingDirectory name).follow Session.attachmentLogAfter [] commands)
      ((Session.start workingDirectory name).run commands).2.module :=
  Session.follow_invariant (I := fun s log => Explains log s.module)
    (fun h hperform => h.step (Session.performs_of_ok hperform).attaches) (.empty name) commands

end AttachmentLog

/-- The log of the calls explains the attachments of a run, whatever else was done in it.  The
attachments of every target have different keys, in the order in which they were first attached
to it, with the node under each that was attached last.  A call succeeds exactly where its
target exists, and changes nothing but what is under its key. -/
theorem Session.attachments_follow_calls (workingDirectory : List UInt8) (name : String)
    (commands : List Command) :
    let s := ((start workingDirectory name).run commands).2
    let log := (start workingDirectory name).follow attachmentLogAfter [] commands
    (∀ call ∈ log, (s.module.attachments? call.1).isSome) ∧
    (∀ target attachments, s.module.attachments? target = some attachments →
      attachments.keys.Nodup ∧
      attachments.keys = ((valuesAt target log).map Prod.fst).eraseDups ∧
      (∀ key, attachments.find? key = (valuesAt key (valuesAt target log)).getLast?) ∧
      attachments.entries = attachments.keys.filterMap fun key =>
        (attachments.find? key).map (key, ·)) ∧
    (∀ command answer s', s.perform command = .ok (answer, s') →
      s.module.Attaches s'.module (s.attachment? command)) ∧
    (∀ target key node, s.perform (.attach target key node) =
      if (s.module.attachments? target).isSome then
        .ok (.done, { s with module := s.module.attach target key node })
      else .error .dangling) ∧
    ∀ (m : Module) (target : Target) (key : String) (node : NodeId),
      m.AttachesOnly target key node (m.attach target key node) := by
  intro s log
  have h : log.Explains s.module := AttachmentLog.explains_run workingDirectory name commands
  refine ⟨h.exist, ?_, fun _ _ _ hperform => (performs_of_ok hperform).attaches,
    s.perform_attach, Module.attachesOnly_attach⟩
  intro target attachments hattachments
  have hshows := h.shows target attachments hattachments
  exact ⟨hshows.nodup_keys, hshows.keys, hshows.find?,
    Keyed.entries_eq_filterMap hshows.nodup_keys⟩

/-- A key that is used again keeps its place. -/
example :
    let s := ((Session.startDeclaring [] "m" "f" ⟨.void, []⟩).run
      [.attach (.function ⟨0⟩) "b" ⟨1⟩, .attach (.function ⟨0⟩) "a" ⟨0⟩,
        .attach (.function ⟨0⟩) "b" ⟨2⟩]).2
    s.module.attachments? (.function ⟨0⟩) = some ⟨[("b", ⟨2⟩), ("a", ⟨0⟩)]⟩ := by
  decide +kernel

end DebugMetadata

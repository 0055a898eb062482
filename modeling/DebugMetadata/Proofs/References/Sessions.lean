import DebugMetadata.Proofs.References.Module
import DebugMetadata.Proofs.References.Recorders

/-!
# References in a session

As long as a module is told only of what it has, everything that is referred to in it exists.
If besides no one but recorders makes nodes refer to each other, no chain of references leads
back to its start.
-/

namespace DebugMetadata

/-- Whether the command leaves it to recorders to make a node refer to another one: it neither
adds a node nor pushes one to a list. -/
def Command.leavesReferences : Command → Bool
  | .edit (.add _) | .edit (.pushToList _ _) => false
  | _ => true

namespace Session

variable {s s' : Session} {command : Command} {answer : Answer}

/-- Everything that is referred to in a session exists, and its recorders are as they have to
be to keep it so. -/
structure Resolves (s : Session) : Prop where
  module : s.module.Resolves
  rooted : s.Rooted
  named : s.module.Named
  recorders : ∀ (n : Nat) (slot : RecorderSlot), s.recorders[n]? = some slot →
    slot.recorder.IsAtPlain s.module.graph
  cursors : ∀ (n : Nat) (c : Cursor), s.cursors[n]? = some c → ∀ id, c.location = some id →
    id.index < s.module.graph.size

namespace Resolves

theorem start (workingDirectory : List UInt8) (name : String) :
    (Session.start workingDirectory name).Resolves := by
  refine ⟨.empty name, .start workingDirectory name, ?_, ?_, ?_⟩
  · intro other id
    change (∅ : Std.HashMap String FunctionId)[other]? = some id ↔ ([] : List String)[id.index]? = _
    simp
  · intro n slot hslot
    cases hslot
  · intro n c hc
    cases hc

/-! ## The graph -/

/-- What a command does to the graph is an edit that it asks for, or is built. -/
theorem edits_or_builds (h : s.Resolves) (hperform : s.Performs command answer s') :
    (∃ edit, command = .edit edit ∧
      s.module.graph.perform edit = .ok (answer, s'.module.graph)) ∨
    s.module.graph.Builds s.module.functions.size s'.module.graph := by
  have hindexed := h.rooted.indexed
  cases hperform with
  | edit edit hedit => exact .inl ⟨edit, rfl, hedit⟩
  | addFlag flag => exact .inr (Graph.Builds.refl.addFlag hindexed flag)
  | createRecorder choice settings path hcreate =>
      exact .inr (Recorder.builds_create hindexed hcreate)
  | markSubprogram function name line hslot hmark =>
      exact .inr (Recorder.builds_markSubprogram hindexed (h.rooted.recorders _ _ hslot) h.named
        hmark)
  | markLocation line hslot hc hmark =>
      exact .inr (Recorder.builds_markLocation (h.recorders _ _ hslot) hmark)
  | finalize hslot =>
      exact .inr (Recorder.builds_finalize hindexed (h.rooted.recorders _ _ hslot))
  | addSubprogram name linkageName line hslot hexposed hadd =>
      exact .inr (Recorder.builds_addSubprogram? hindexed (h.rooted.recorders _ _ hslot) h.named
        hadd)
  | addLocation line hslot hexposed hadd =>
      exact .inr (Recorder.builds_addLocation? (h.recorders _ _ hslot) hadd)
  | _ => exact .inr .refl

theorem graph_step (h : s.Resolves) (hrefs : ∀ ref ∈ command.references, s.module.has ref = true)
    (hperform : s.Performs command answer s') :
    s'.module.graph.Resolves s.module.functions.size := by
  rcases h.edits_or_builds hperform with ⟨edit, rfl, hedit⟩ | hbuilds
  · exact h.module.graph.perform (fun ref href => Module.has_graph (hrefs ref href)) hedit
  · exact hbuilds.resolves h.module.graph

theorem listsOnTop_step (h : s.Resolves) (htop : s.module.graph.ListsOnTop)
    (hcommand : command.leavesReferences = true) (hperform : s.Performs command answer s') :
    s'.module.graph.ListsOnTop := by
  rcases h.edits_or_builds hperform with ⟨edit, rfl, hedit⟩ | hbuilds
  · cases edit with
    | add node => cases hcommand
    | newList =>
        have hgraph : s.module.graph.newList.2 = s'.module.graph :=
          congrArg Prod.snd (Except.ok.inj hedit)
        rw [← hgraph]
        exact htop.newList
    | pushToList list id => cases hcommand
    | addNamed name id =>
        have hgraph : s.module.graph.addNamed name id = s'.module.graph :=
          congrArg Prod.snd (Except.ok.inj hedit)
        rw [← hgraph]
        exact ⟨htop.nodes, htop.elements⟩
  · exact hbuilds.listsOnTop htop

/-! ## Recorders and cursors -/

theorem recorders_step (h : s.Resolves) (hperform : s.Performs command answer s') {n : Nat}
    {slot : RecorderSlot} (hslot : s'.recorders[n]? = some slot) :
    slot.recorder.IsAtPlain s'.module.graph := by
  have hgrows := hperform.grows
  cases hperform.recorderOrigin hslot with
  | kept hold => exact (h.recorders _ _ hold).mono hgrows
  | created choice settings path hn hcreate => exact Recorder.isAtPlain_create hcreate
  | cloned hn hold => exact (h.recorders _ _ hold).mono hgrows
  | registered function name line hold hmark =>
      exact Recorder.isAtPlain_markSubprogram h.rooted.indexed hmark
  | marked k line hold hc hmark =>
      intro id hid
      rw [(Recorder.leadsTo_markLocation hmark).2] at hid
      exact (h.recorders _ _ hold id hid).mono hgrows
  | added name linkageName line hold hadd =>
      obtain ⟨hactive, hplain⟩ := Recorder.isAtPlain_addSubprogram? h.rooted.indexed hadd
      intro id hid
      cases hactive.symm.trans hid
      exact hplain

/-- The location that a mark of a line leaves to a cursor exists. -/
theorem location_markLocation {r r' : Recorder} {m m' : Module} {c c' : Cursor} {line : Nat}
    {event : Option Event} (hg : m.graph.Indexed)
    (hmark : r.markLocation m c line = .ok (r', c', m', event))
    (hc : ∀ id, c.location = some id → id.index < m.graph.size) :
    ∀ id, c'.location = some id → id.index < m'.graph.size := by
  have hle := (Recorder.grows_markLocation hmark).nodes.size_le
  intro id hid
  rcases Recorder.markLocation_cases hmark with
    ⟨-, -, rfl, -⟩ | ⟨t, scope, -, -, -, rfl, hm', -⟩ | ⟨t, -, -, -, rfl, -⟩ |
    ⟨t, scope, -, -, -, -, -, rfl, -⟩
  · exact Nat.lt_of_lt_of_le (hc id hid) hle
  · rw [hm', ← Option.some.inj hid]
    exact Graph.lt_size_of_node? (hg.node?_addDebug _ _)
  · exact Nat.lt_of_lt_of_le (hc id hid) hle
  · exact Nat.lt_of_lt_of_le (hc id hid) hle

theorem cursors_step (h : s.Resolves) (hrefs : ∀ ref ∈ command.references, s.module.has ref = true)
    (hperform : s.Performs command answer s') {n : Nat} {c : Cursor}
    (hc : s'.cursors[n]? = some c) :
    ∀ id, c.location = some id → id.index < s'.module.graph.size := by
  have hle := hperform.grows.nodes.size_le
  intro id hid
  cases hperform.cursorOrigin hc with
  | kept hold => exact Nat.lt_of_lt_of_le (h.cursors _ _ hold id hid) hle
  | opened block hn => cases hid
  | moved block hold => exact Nat.lt_of_lt_of_le (h.cursors _ _ hold id hid) hle
  | located location hold =>
      have hhas := hrefs (.node id) (by
        change Reference.node id ∈ (location.map .node).toList
        rw [show location = some id from hid]
        exact List.mem_singleton.mpr rfl)
      exact Nat.lt_of_lt_of_le (of_decide_eq_true hhas) hle
  | marked line hslot hold hmark =>
      exact location_markLocation h.rooted.indexed hmark (h.cursors _ _ hold) id hid

/-! ## Code -/

/-- What a mark of a line emits has a location that is made for it, and calls no function. -/
theorem resolves_markerAt {functions nodes : Nat} {c : Cursor} {line : Nat} {location : NodeId}
    {id : InstrId} (hc : ∀ node, c.location = some node → node.index < nodes)
    (hlocation : location.index < nodes) :
    (TaggedRecorder.markerAt c line location).Resolves functions nodes id where
  attachments entry hentry := by
    rw [List.mem_singleton.mp hentry]
    exact hlocation
  location := hc
  callee function hfunction := by cases hfunction
  operands other hother := by cases hother

theorem module_markSubprogram {r r' : Recorder} {m m' : Module} {function : FunctionId}
    {name : String} {line : Nat} {event : Option Event} (hm : m.Resolves)
    (hmark : r.markSubprogram m function name line = .ok (r', m', event))
    (hgraph : m'.graph.Resolves m.functions.size) : m'.Resolves := by
  have hle := (Recorder.grows_markSubprogram hmark).nodes.size_le
  rcases Recorder.markSubprogram_cases hmark with
    ⟨-, -, hm', -⟩ | ⟨t, f, -, -, -, hm', -⟩ | ⟨t, f, -, -, -, hm', -⟩
  · rw [hm']
    exact hm
  · rw [hm'] at hgraph hle ⊢
    obtain ⟨type, locals, hnode⟩ := t.node?_addSubprogram name f.name line m.graph
    exact (hm.of_graph hgraph hle).attachToFunction function _ (Graph.lt_size_of_node? hnode)
  · rw [hm'] at hgraph hle ⊢
    rw [t.module_addSubprogram name f.name line m]
    exact hm.of_graph hgraph hle

theorem module_markLocation {r r' : Recorder} {m m' : Module} {c c' : Cursor} {line : Nat}
    {event : Option Event} (hm : m.Resolves) (hg : m.graph.Indexed)
    (hmark : r.markLocation m c line = .ok (r', c', m', event))
    (hc : ∀ id, c.location = some id → id.index < m.graph.size)
    (hgraph : m'.graph.Resolves m.functions.size) : m'.Resolves := by
  have hle := (Recorder.grows_markLocation hmark).nodes.size_le
  rcases Recorder.markLocation_cases hmark with
    ⟨-, -, -, hm', -⟩ | ⟨t, scope, -, -, -, -, hm', -⟩ | ⟨t, -, -, -, -, hm', -⟩ |
    ⟨t, scope, -, -, -, -, -, -, hm', -⟩
  · rw [hm']
    exact hm
  · rw [hm'] at hgraph hle ⊢
    exact hm.of_graph hgraph hle
  · rw [hm']
    exact hm
  · rw [hm'] at hgraph hle ⊢
    refine (hm.of_graph hgraph hle).pushInstruction (resolves_markerAt ?_ ?_)
    · exact fun node hnode => Nat.lt_of_lt_of_le (hc node hnode) hle
    · exact Graph.lt_size_of_node? (hg.node?_addTuple _)

theorem module_step (h : s.Resolves) (hrefs : ∀ ref ∈ command.references, s.module.has ref = true)
    (hperform : s.Performs command answer s') : s'.module.Resolves := by
  have hgraph := h.graph_step hrefs hperform
  have hle := hperform.grows.nodes.size_le
  cases hperform with
  | setSourceFilename filename => exact ⟨h.module.graph, h.module.attachments, h.module.instructions⟩
  | addFunction name signature hfresh => exact h.module.pushFunction name signature
  | appendBlock function label hlt => exact h.module.pushBlock function label
  | edit edit hedit => exact h.module.of_graph hgraph hle
  | attachToFunction key node hf =>
      have hnode := hrefs (.node node) (List.mem_cons_of_mem _ List.mem_cons_self)
      exact h.module.attachToFunction _ key (of_decide_eq_true hnode)
  | attachToInstruction key node hi =>
      have hnode := hrefs (.node node) (List.mem_cons_of_mem _ List.mem_cons_self)
      exact h.module.attachToInstruction _ key (of_decide_eq_true hnode)
  | addFlag flag => exact h.module.of_graph hgraph hle
  | emit operation hc hblock =>
      refine h.module.pushInstruction ⟨?_, h.cursors _ _ hc, ?_, ?_⟩
      · intro entry hentry
        cases hentry
      · exact fun function hfunction => of_decide_eq_true (hrefs _ hfunction)
      · exact fun other hother => of_decide_eq_true (hrefs _ hother)
  | createRecorder choice settings path hcreate =>
      have hm := Recorder.module_create hcreate
      rw [report, hm] at hgraph hle ⊢
      exact h.module.of_graph hgraph hle
  | markSubprogram function name line hslot hmark =>
      exact module_markSubprogram h.module hmark hgraph
  | markLocation line hslot hc hmark =>
      exact module_markLocation h.module h.rooted.indexed hmark (h.cursors _ _ hc) hgraph
  | finalize hslot =>
      rw [report, Recorder.module_finalize] at hgraph hle ⊢
      exact h.module.of_graph hgraph hle
  | addSubprogram name linkageName line hslot hexposed hadd =>
      have hm := Recorder.module_addSubprogram? hadd
      rw [setRecorder, hm] at hgraph hle ⊢
      exact h.module.of_graph hgraph hle
  | addLocation line hslot hexposed hadd =>
      have hm := Recorder.module_addLocation? hadd
      rw [hm] at hgraph hle ⊢
      exact h.module.of_graph hgraph hle
  | openCursor | moveTo | locate | clone => exact h.module

theorem step (h : s.Resolves) (hrefs : ∀ ref ∈ command.references, s.module.has ref = true)
    (hperform : s.Performs command answer s') : s'.Resolves where
  module := h.module_step hrefs hperform
  rooted := h.rooted.step hperform
  named := hperform.named h.named
  recorders _ _ hslot := h.recorders_step hperform hslot
  cursors _ _ hc := h.cursors_step hrefs hperform hc

/-! ## Answers -/

theorem perform_has {m : Module} (hg : m.graph.Indexed) {edit : Graph.Edit} {graph : Graph}
    (h : m.graph.perform edit = .ok (answer, graph)) :
    ∀ ref ∈ answer.references, { m with graph }.has ref = true := by
  intro ref href
  cases Graph.performs_of_ok h with
  | add node =>
      rw [List.mem_singleton.mp href]
      exact decide_eq_true (Graph.lt_size_of_node? (hg.node?_add node))
  | newList =>
      rw [List.mem_singleton.mp href]
      refine decide_eq_true ?_
      change m.graph.lists.size < (m.graph.lists.push #[]).size
      rw [Array.size_push]
      exact Nat.lt_succ_self _
  | pushToList node hlist => cases href
  | addNamed name node => cases href

/-- What a command returns is there. -/
theorem answer_has (h : s.Resolves) (hperform : s.Performs command answer s') :
    ∀ ref ∈ answer.references, s'.module.has ref = true := by
  have hindexed := h.rooted.indexed
  intro ref href
  cases hperform with
  | addFunction name signature hfresh =>
      rw [List.mem_singleton.mp href]
      refine decide_eq_true ?_
      change _ < (s.module.functions.push _).size
      rw [Array.size_push]
      exact Nat.lt_succ_self _
  | appendBlock function label hlt =>
      rw [List.mem_singleton.mp href]
      refine decide_eq_true ?_
      change _ < (s.module.blocks.push _).size
      rw [Array.size_push]
      exact Nat.lt_succ_self _
  | edit edit hedit => exact perform_has hindexed hedit ref href
  | emit operation hc hblock =>
      rw [List.mem_singleton.mp href]
      refine decide_eq_true ?_
      change _ < (s.module.instructions.push _).size
      rw [Array.size_push]
      exact Nat.lt_succ_self _
  | markLocation line hslot hc hmark =>
      obtain ⟨id, hid, rfl⟩ := Option.map_eq_some_iff.mp (Option.mem_toList.mp href)
      exact decide_eq_true (location_markLocation hindexed hmark (h.cursors _ _ hc) id hid)
  | addSubprogram name linkageName line hslot hexposed hadd =>
      rw [List.mem_singleton.mp href]
      exact decide_eq_true (Recorder.isAtPlain_addSubprogram? hindexed hadd).2.lt
  | addLocation line hslot hexposed hadd =>
      rw [List.mem_singleton.mp href]
      rcases Recorder.addLocation?_cases hadd with ⟨t, scope, -, -, rfl, rfl⟩ |
        ⟨t, scope, -, -, rfl, rfl⟩
      · exact decide_eq_true (Graph.lt_size_of_node? (hindexed.node?_addDebug _ _))
      · exact decide_eq_true (Graph.lt_size_of_node? (hindexed.node?_addTuple _))
  | _ => cases href

end Resolves

/-! ## Runs -/

/-- Whether every command of a run that succeeds passes only handles of what the module has
by then. -/
def passesExisting (s : Session) (commands : List Command) : Bool :=
  s.meets (fun _ _ _ => ()) (fun s _ command => command.references.all s.module.has) () commands

variable {commands : List Command}

theorem Resolves.run (h : s.Resolves) (hpasses : s.passesExisting commands = true) :
    (s.run commands).2.Resolves :=
  @invariant_of_meets Unit _ _ (fun s _ => s.Resolves)
    (fun h hrefs hperform => h.step (List.all_eq_true.mp hrefs) hperform) commands s () h hpasses

/-- What a run has returned is there at its end. -/
theorem Resolves.answers_have (h : s.Resolves) (hpasses : s.passesExisting commands = true) :
    ∀ answer, .ok answer ∈ (s.run commands).1 → ∀ ref ∈ answer.references,
      (s.run commands).2.module.has ref = true := by
  induction commands generalizing s with
  | nil =>
      intro answer hanswer
      cases hanswer
  | cons command rest ih =>
      intro answer hanswer ref href
      rw [passesExisting, meets] at hpasses
      rw [Session.run] at hanswer ⊢
      cases hok : s.perform command with
      | ok result =>
          obtain ⟨first, s'⟩ := result
          have hperform := performs_of_ok hok
          rw [hok, Bool.and_eq_true] at hpasses
          rw [hok] at hanswer
          rcases List.mem_cons.mp hanswer with hfirst | hlater
          · cases hfirst
            exact Module.has_mono (h.answer_has hperform ref href) (s'.steps_run rest).grows
          · exact ih (h.step (List.all_eq_true.mp hpasses.1) hperform) hpasses.2 answer hlater ref
              href
      | error fault =>
          rw [hok] at hpasses hanswer
          cases fault with
          | dangling => cases List.mem_singleton.mp hanswer
          | _ =>
              rcases List.mem_cons.mp hanswer with hfirst | hlater
              · cases hfirst
              · exact ih h hpasses answer hlater ref href

/-- The handles that were returned, after one more command. -/
def withReturned (s : Session) (returned : List Reference) (command : Command) :
    List Reference :=
  match s.perform command with
  | .ok (answer, _) => returned ++ answer.references
  | .error _ => returned

/-- Whether every command of a run that succeeds passes only handles that were returned before
it. -/
def passesReturned (s : Session) (returned : List Reference) (commands : List Command) : Bool :=
  s.meets withReturned
    (fun _ returned command => command.references.all fun ref => decide (ref ∈ returned))
    returned commands

/-- To pass only what was returned before is one way to pass only what is there. -/
theorem Resolves.passesExisting_of_passesReturned (h : s.Resolves) {returned : List Reference}
    (hreturned : ∀ ref ∈ returned, s.module.has ref = true)
    (hpasses : s.passesReturned returned commands = true) :
    s.passesExisting commands = true := by
  induction commands generalizing s returned with
  | nil => rfl
  | cons command rest ih =>
      rw [passesReturned, meets] at hpasses
      rw [passesExisting, meets]
      cases hok : s.perform command with
      | ok result =>
          obtain ⟨answer, s'⟩ := result
          have hperform := performs_of_ok hok
          rw [hok, Bool.and_eq_true] at hpasses
          obtain ⟨hpassed, hrest⟩ := hpasses
          have hrefs : ∀ ref ∈ command.references, s.module.has ref = true := fun ref href =>
            hreturned ref (of_decide_eq_true (List.all_eq_true.mp hpassed ref href))
          have hafter : ∀ ref ∈ s.withReturned returned command, s'.module.has ref = true := by
            intro ref href
            rw [withReturned, hok] at href
            rcases List.mem_append.mp href with hold | hnew
            · exact Module.has_mono (hreturned ref hold) hperform.steps.grows
            · exact h.answer_has hperform ref hnew
          rw [Bool.and_eq_true]
          exact ⟨List.all_eq_true.mpr hrefs, ih (h.step hrefs hperform) hafter hrest⟩
      | error fault =>
          rw [hok] at hpasses
          cases fault with
          | dangling => rfl
          | _ => exact ih h hreturned hpasses

/-- Where only recorders make nodes refer to each other, no chain of references leads back to its
start after a run. -/
theorem Resolves.acyclic_run (h : s.Resolves) (hlists : s.module.graph.ListsOnTop)
    (hpasses : s.passesExisting commands = true)
    (hcommands : ∀ command ∈ commands, command.leavesReferences = true) (id : NodeId) :
    ¬ Relation.TransGen (s.run commands).2.module.graph.RefersTo id id := by
  have htop := @invariant_of_meets Unit _ _ (fun s _ => s.Resolves ∧ s.module.graph.ListsOnTop)
    (fun h hmeets hperform => by
      rw [Bool.and_eq_true] at hmeets
      exact ⟨h.1.step (List.all_eq_true.mp hmeets.1) hperform,
        h.1.listsOnTop_step h.2 hmeets.2 hperform⟩)
    commands _ () ⟨h, hlists⟩ (meets_and hpasses hcommands)
  exact htop.2.acyclic htop.1.module.graph.descends id

/-- Wherever commands have led that passed only handles of what the module had by then, as all
those are that it returns: everything that is referred to in the module exists, nodes and
instructions refer to nodes and instructions before them, and unless somebody but recorders
made nodes refer to each other, no chain of references leads back to its start, not even
through the lists. -/
theorem references_resolve (workingDirectory : List UInt8) (name : String)
    (commands : List Command)
    (hpasses : (start workingDirectory name).passesExisting commands = true) :
    let answers := ((start workingDirectory name).run commands).1
    let m := ((start workingDirectory name).run commands).2.module
    m.Resolves ∧
    (∀ answer, .ok answer ∈ answers → ∀ ref ∈ answer.references, m.has ref = true) ∧
    ((∀ command ∈ commands, command.leavesReferences = true) →
      ∀ id, ¬ Relation.TransGen m.graph.RefersTo id id) := by
  intro answers m
  have hstart : (start workingDirectory name).Resolves := .start workingDirectory name
  exact ⟨(hstart.run hpasses).module, hstart.answers_have hpasses,
    hstart.acyclic_run .empty hpasses⟩

/-- A tagged and a typed recorder record a function with a call of itself and a result that
is returned. -/
def recordedRun : List Command :=
  [.addFunction "main" ⟨.void, []⟩, .appendBlock ⟨0⟩ "entry", .openCursor ⟨0⟩,
    .createRecorder (.fixed .legacy) {} [0x2F, 0x61],
    .createRecorder (.fixed .modern) {} [0x2F, 0x61],
    .recorder 0 (.markSubprogram ⟨0⟩ "main" 1), .recorder 1 (.markSubprogram ⟨0⟩ "main" 1),
    .recorder 0 (.markLocation 0 2), .recorder 1 (.markLocation 0 2),
    .cursor 0 (.emit (.call (.function ⟨0⟩) [])), .cursor 0 (.emit (.ret (some (.result ⟨1⟩)))),
    .recorder 0 .finalize, .recorder 1 .finalize]

/-- The marker of the tagged recorder comes first, then the call and the return of what the
call gives. -/
theorem references_resolve_of_recordedRun :
    (Session.start [] "m").passesExisting recordedRun = true ∧
    (∀ command ∈ recordedRun, command.leavesReferences = true) ∧
    ∃ s, ((Session.start [] "m").run recordedRun).2 = s ∧ s.recorders.size = 2 ∧
      (s.module.instruction? ⟨1⟩).map (·.operation) = some (.call (.function ⟨0⟩) []) ∧
      (s.module.instruction? ⟨2⟩).map (·.operation) = some (.ret (some (.result ⟨1⟩))) ∧
      s.module.Resolves ∧ ∀ id, ¬ Relation.TransGen s.module.graph.RefersTo id id := by
  let declared := startDeclaring [] "m" "main" ⟨.void, []⟩
  have hdeclare := perform_start_addFunction [] "m" "main" ⟨.void, []⟩
  have hrun : ((Session.start [] "m").run recordedRun).2 =
      (declared.run recordedRun.tail).2 := run_cons hdeclare _
  have hpasses : (Session.start [] "m").passesExisting recordedRun = true := by
    rw [passesExisting, recordedRun, meets_cons hdeclare]
    decide +kernel
  have hcommands : ∀ command ∈ recordedRun, command.leavesReferences = true := by decide
  obtain ⟨hresolves, -, hacyclic⟩ := references_resolve [] "m" recordedRun hpasses
  refine ⟨hpasses, hcommands, _, rfl, ?_, ?_, ?_, hresolves, hacyclic hcommands⟩
  · rw [hrun]
    decide +kernel
  · rw [hrun]
    decide +kernel
  · rw [hrun]
    decide +kernel

/-- A run that passes only handles that it was given before resolves its references as well. -/
theorem references_resolve_of_passesReturned (workingDirectory : List UInt8) (name : String)
    (commands : List Command)
    (hpasses : (start workingDirectory name).passesReturned [] commands = true) :
    let answers := ((start workingDirectory name).run commands).1
    let m := ((start workingDirectory name).run commands).2.module
    m.Resolves ∧
    (∀ answer, .ok answer ∈ answers → ∀ ref ∈ answer.references, m.has ref = true) ∧
    ((∀ command ∈ commands, command.leavesReferences = true) →
      ∀ id, ¬ Relation.TransGen m.graph.RefersTo id id) := by
  intro answers m
  have hstart : (start workingDirectory name).Resolves := .start workingDirectory name
  have hexisting : (start workingDirectory name).passesExisting commands = true :=
    hstart.passesExisting_of_passesReturned (List.forall_mem_nil _) hpasses
  exact ⟨(hstart.run hexisting).module, hstart.answers_have hexisting,
    hstart.acyclic_run .empty hexisting⟩

end Session

end DebugMetadata

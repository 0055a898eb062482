import DebugMetadata.Proofs.Graph.Search
import DebugMetadata.Proofs.Journal.Basic
import DebugMetadata.Proofs.Layout.Tuples
import DebugMetadata.Proofs.Scopes.Typed

/-!
# The identity of what is recorded

A typed recorder makes a subprogram of its own for every registration.  A tagged one shares
the subprogram between registrations of one function under one name and line, and never
between functions.  The location of a line is shared within a subprogram and nowhere else.
This holds in every run, whatever else is added to the graph in between.
-/

namespace DebugMetadata

/-! ## What the journal tells of the graph -/

/-- The graph has the subprogram that was active after the registration. -/
def TypedRecorder.Enrolled (t : TypedRecorder) (m : Module) (e : Enrollment) : Prop :=
  ∃ f type locals, m.function? e.function = some f ∧
    m.graph.node? e.subprogram =
      some (.debug (t.subprogramNode e.name f.name e.line type locals) true)

/-- The graph has the subprogram that was active after the registration, and what it refers
to. -/
def TaggedRecorder.Enrolled (t : TaggedRecorder) (m : Module) (e : Enrollment) : Prop :=
  ∃ pair f type types locals, HasFile t.source m.graph t.file pair ∧
    m.function? e.function = some f ∧
    m.graph.node? e.subprogram = some (.tuple (t.subprogramOperands pair t.file e.name f.name e.line
      type locals (some e.function))) ∧
    m.graph.node? type = some (.tuple (typeOperands types)) ∧
    m.graph.node? types = some (.tuple typesOperands) ∧
    m.graph.node? locals = some (.tuple emptyOperands)

def Recorder.Enrolled (m : Module) (e : Enrollment) : Recorder → Prop
  | .off => False
  | .typed t => t.Enrolled m e
  | .tagged t => t.Enrolled m e

namespace Journal

/-- What the journal says has been yielded is in the graph.  A subprogram of a typed recorder
comes after all that were yielded before it. -/
structure Holds (journal : Journal) (s : Session) : Prop where
  rooted : s.Rooted
  named : s.module.Named
  enrolled : ∀ e ∈ journal.enrollments, ∃ r, s.HasRecorder e.recorder r ∧ r.Enrolled s.module e
  ascending : journal.enrollments.Pairwise fun e e' =>
    s.schema? e'.recorder = some .modern → e.subprogram.index < e'.subprogram.index
  placed : ∀ p ∈ journal.placements, ∃ r schema, s.HasRecorder p.recorder r ∧
    r.schema? = some schema ∧
    s.module.graph.node? p.location = some (schema.locationNode p.line p.scope)

/-- The registrations of a recorder, in order. -/
def enrolled (journal : Journal) (n : Nat) : List Enrollment :=
  journal.enrollments.filter (·.recorder = n)

/-- The lines that a recorder has located, in order. -/
def located (journal : Journal) (n : Nat) : List Placement :=
  journal.placements.filter (·.recorder = n)

variable {journal : Journal} {n : Nat} {e : Enrollment} {p : Placement}

theorem mem_enrolled : e ∈ journal.enrolled n ↔ e ∈ journal.enrollments ∧ e.recorder = n := by
  rw [enrolled, List.mem_filter, decide_eq_true_eq]

theorem mem_located : p ∈ journal.located n ↔ p ∈ journal.placements ∧ p.recorder = n := by
  rw [located, List.mem_filter, decide_eq_true_eq]

/-- When what a recorder yields is the same node. -/
structure Identifies (journal : Journal) (s : Session) (n : Nat) : Prop where
  /-- No two registrations with a typed recorder yield the same subprogram. -/
  modern_ascending : s.schema? n = some .modern →
    (journal.enrolled n).Pairwise fun e e' => e.subprogram.index < e'.subprogram.index
  legacy_eq_iff : s.schema? n = some .legacy →
    ∀ e ∈ journal.enrolled n, ∀ e' ∈ journal.enrolled n,
      (e.subprogram = e'.subprogram ↔
        e.function = e'.function ∧ e.name = e'.name ∧ e.line = e'.line)
  location_eq_iff : ∀ p ∈ journal.located n, ∀ p' ∈ journal.located n,
    (p.location = p'.location ↔ p.line = p'.line ∧ p.scope = p'.scope)
  /-- Nothing is added for a line that has a location in the active subprogram. -/
  repeated : ∀ p ∈ journal.located n, s.active? n = some p.scope →
    ∀ command answer s', command.locates? = some (n, p.line) →
      s.perform command = .ok (answer, s') → s'.module.graph = s.module.graph

end Journal

/-! ## Nodes and what is written in them -/

namespace Schema

variable {schema : Schema} {line line' : Nat} {scope scope' : NodeId}

theorem isDistinct_locationNode (schema : Schema) (line : Nat) (scope : NodeId) :
    (schema.locationNode line scope).isDistinct = false := by
  cases schema <;> rfl

/-- The location of a line tells the line and the subprogram. -/
theorem locationNode_inj (h : schema.locationNode line scope = schema.locationNode line' scope') :
    line = line' ∧ scope = scope' := by
  cases schema with
  | modern =>
      simp only [locationNode, TypedRecorder.locationNode, Node.debug.injEq, DebugNode.mk.injEq,
        List.cons.injEq, Prod.mk.injEq, FieldValue.int.injEq, FieldValue.node.injEq,
        Int.natCast_inj, true_and, and_true] at h
      exact h
  | legacy =>
      simp only [locationNode, TaggedRecorder.locationOperands, Node.tuple.injEq, List.cons.injEq,
        Operand.i32, Operand.int.injEq, Operand.node.injEq, Int.natCast_inj, true_and,
        and_true] at h
      exact h

end Schema

namespace TaggedRecorder

variable {t t' : TaggedRecorder} {m : Module} {e e' : Enrollment}

/-- The tuple of a subprogram tells its name, its line and its function. -/
theorem subprogramOperands_inj {name name' linkageName linkageName' : String} {line line' : Nat}
    {pair pair' context context' type type' locals locals' : NodeId}
    {function function' : FunctionId}
    (h : t.subprogramOperands pair context name linkageName line type locals (some function) =
      t.subprogramOperands pair' context' name' linkageName' line' type' locals'
        (some function')) :
    function = function' ∧ name = name' ∧ line = line' := by
  simp only [subprogramOperands, Option.elim, List.cons.injEq, Operand.i32, Operand.int.injEq,
    Operand.str.injEq, Operand.function.injEq, Int.natCast_inj, true_and, and_true] at h
  obtain ⟨-, -, hname, -, -, hline, -, hfunction, -⟩ := h
  exact ⟨hfunction, hname, hline⟩

theorem LeadsTo.subprogramOperands_eq (h : t.LeadsTo t') :
    t'.subprogramOperands = t.subprogramOperands := by
  funext pair context name linkageName line type locals function
  simp only [subprogramOperands, h.optimized]

/-- Registrations of one recorder yield the same subprogram exactly if they are of the same
function, name and line. -/
theorem Enrolled.eq_iff (h : t.Enrolled m e) (h' : t.Enrolled m e') (hm : m.graph.Indexed) :
    e.subprogram = e'.subprogram ↔
      e.function = e'.function ∧ e.name = e'.name ∧ e.line = e'.line := by
  obtain ⟨pair, f, type, types, locals, hfile, hf, hid, htype, htypes, hlocals⟩ := h
  obtain ⟨pair', f', type', types', locals', hfile', hf', hid', htype', htypes', hlocals'⟩ := h'
  constructor
  · intro hsame
    rw [hsame, hid', Option.some.injEq, Node.tuple.injEq] at hid
    obtain ⟨hfunction, hname, hline⟩ := subprogramOperands_inj hid
    exact ⟨hfunction.symm, hname.symm, hline.symm⟩
  · rintro ⟨hfunction, hname, hline⟩
    rw [hfunction, hf', Option.some.injEq] at hf
    have htypes := hm.eq_of_node? rfl htypes htypes'
    rw [htypes] at htype
    have htype := hm.eq_of_node? rfl htype htype'
    have hlocals := hm.eq_of_node? rfl hlocals hlocals'
    rw [← hf, hfunction, hname, hline, htype, hlocals, ← hfile.unique hfile'] at hid
    exact hm.eq_of_node? rfl hid hid'

end TaggedRecorder

/-! ## Registrations over time -/

namespace Recorder

variable {r r' : Recorder} {s s' : Session} {command : Command} {answer : Answer}
  {e : Enrollment}

theorem Enrolled.step (h : r.Enrolled s.module e) (hperform : s.Performs command answer s')
    (hleads : r.LeadsTo r') : r'.Enrolled s'.module e := by
  have hgrows := hperform.grows.nodes
  cases hleads with
  | off => exact h
  | typed hleads =>
      obtain ⟨f, type, locals, hf, hid⟩ := h
      obtain ⟨f', hf', hname⟩ := hperform.function_name hf
      refine ⟨f', type, locals, hf', ?_⟩
      rw [hleads.subprogramNode_eq, hname]
      exact hgrows.node? hid
  | tagged hleads =>
      obtain ⟨pair, f, type, types, locals, hfile, hf, hid, htype, htypes, hlocals⟩ := h
      obtain ⟨f', hf', hname⟩ := hperform.function_name hf
      refine ⟨pair, f', type, types, locals, ?_, hf', ?_, hgrows.node? htype,
        hgrows.node? htypes, hgrows.node? hlocals⟩
      · rw [hleads.source, hleads.file]
        exact hfile.mono hgrows
      · rw [hleads.subprogramOperands_eq, hleads.file, hname]
        exact hgrows.node? hid

theorem Enrolled.lt_size (h : r.Enrolled s.module e) :
    e.subprogram.index < s.module.graph.size := by
  cases r with
  | off => cases h
  | typed t =>
      obtain ⟨f, type, locals, -, hid⟩ := h
      exact Graph.lt_size_of_node? hid
  | tagged t =>
      obtain ⟨pair, f, type, types, locals, -, -, hid, -⟩ := h
      exact Graph.lt_size_of_node? hid

end Recorder

namespace Journal.Holds

variable {journal journal' : Journal} {s s' : Session} {command : Command} {answer : Answer}
  {e : Enrollment} {p : Placement}

/-- A journal that is only begun holds. -/
theorem empty (hrooted : s.Rooted) (hnamed : s.module.Named) : Holds {} s where
  rooted := hrooted
  named := hnamed
  enrolled _ he := absurd he List.not_mem_nil
  ascending := .nil
  placed _ hp := absurd hp List.not_mem_nil

/-- What the journal said before a command is still so after it. -/
theorem kept (h : journal.Holds s) (hperform : s.Performs command answer s') :
    journal.Holds s' where
  rooted := h.rooted.step hperform
  named := hperform.named h.named
  enrolled e he := by
    obtain ⟨r, hr, hin⟩ := h.enrolled e he
    obtain ⟨r', hr', hleads, -⟩ := hperform.exists_leadsTo hr
    exact ⟨r', hr', hin.step hperform hleads⟩
  ascending := by
    refine h.ascending.imp_of_mem ?_
    intro e e' _ he' hlt hschema
    obtain ⟨r, hr, -⟩ := h.enrolled e' he'
    rw [hperform.schema?_eq hr] at hschema
    exact hlt hschema
  placed p hp := by
    obtain ⟨r, schema, hr, hschema, hnode⟩ := h.placed p hp
    obtain ⟨r', hr', hleads, -⟩ := hperform.exists_leadsTo hr
    exact ⟨r', schema, hr', hleads.schema?_eq.trans hschema, hperform.grows.nodes.node? hnode⟩

theorem enroll (h : journal.Holds s)
    (he : ∃ r, s.HasRecorder e.recorder r ∧ r.Enrolled s.module e)
    (hlast : s.schema? e.recorder = some .modern →
      ∀ e' ∈ journal.enrollments, e'.subprogram.index < e.subprogram.index) :
    (journal.enroll e).Holds s where
  rooted := h.rooted
  named := h.named
  enrolled := List.forall_mem_append.mpr ⟨h.enrolled, List.forall_mem_singleton.mpr he⟩
  ascending := by
    refine List.pairwise_append.mpr ⟨h.ascending, List.pairwise_singleton _ _, ?_⟩
    intro e' he' e'' he'' hschema
    rw [List.mem_singleton.mp he''] at hschema ⊢
    exact hlast hschema e' he'
  placed := h.placed

theorem place (h : journal.Holds s) (hp : ∃ r schema, s.HasRecorder p.recorder r ∧
      r.schema? = some schema ∧
      s.module.graph.node? p.location = some (schema.locationNode p.line p.scope)) :
    (journal.place p).Holds s where
  rooted := h.rooted
  named := h.named
  enrolled := h.enrolled
  ascending := h.ascending
  placed := List.forall_mem_append.mpr ⟨h.placed, List.forall_mem_singleton.mpr hp⟩

theorem step (h : journal.Holds s) (hperform : s.Performs command answer s')
    (hstep : s.JournalStep s' journal command journal') : journal'.Holds s' := by
  have hkept := h.kept hperform
  cases hstep with
  | @enrolledTyped n t f function name line ht hf hgraph =>
      obtain ⟨t', ht', hleads, -⟩ := hperform.exists_typed ht
      obtain ⟨type, locals, hid⟩ := t.node?_addSubprogram name f.name line s.module.graph
      obtain ⟨f', hf', hname⟩ := hperform.function_name hf
      refine hkept.enroll ⟨_, ht', f', type, locals, hf', ?_⟩ ?_
      · rw [hgraph, hleads.subprogramNode_eq, hname]
        exact hid
      · intro _ e he
        obtain ⟨r, -, hin⟩ := h.enrolled e he
        obtain ⟨-, -, hid, -⟩ := t.addSubprogram_eq name f.name line s.module.graph
        rw [hid]
        exact Nat.lt_of_lt_of_le hin.lt_size (TypedRecorder.grows_withType _).nodes.size_le
  | @enrolledTagged n t f function name line ht hf hgraph =>
      obtain ⟨r', hr', hleads, -⟩ := hperform.exists_leadsTo ht
      obtain ⟨pair, hfile⟩ := (h.rooted.hasRecorder ht).file
      obtain ⟨type, types, locals, hid, htype, htypes, hlocals⟩ :=
        hfile.nodes_addSubprogram h.rooted.indexed name f.name line
      have hfile' := hfile.mono hperform.grows.nodes
      obtain ⟨f', hf', hname⟩ := hperform.function_name hf
      rw [← hgraph] at hid htype htypes hlocals
      rw [h.named.findFunction?_name hf] at hid
      generalize t.addSubprogram name f.name line s.module = added at hid ⊢
      cases hleads with
      | tagged hleads =>
          rw [← hleads.source, ← hleads.file] at hfile'
          refine hkept.enroll
            ⟨_, hr', pair, f', type, types, locals, hfile', hf', ?_, htype, htypes, hlocals⟩ ?_
          · rw [hleads.subprogramOperands_eq, hleads.file, hname]
            exact hid
          · intro hschema
            rw [hr'.schema?_eq] at hschema
            cases hschema
  | placed line hr hschema hscope hgraph =>
      obtain ⟨r', hr', hleads, -⟩ := hperform.exists_leadsTo hr
      refine hkept.place ⟨r', _, hr', hleads.schema?_eq.trans hschema, ?_⟩
      rw [hgraph]
      exact h.rooted.indexed.node?_add _
  | committed hr hgraph => exact { hkept with }
  | silent hgraph => exact hkept

theorem run (workingDirectory : List UInt8) (name : String) (commands : List Command) :
    Holds ((Session.start workingDirectory name).follow Session.journalAfter {} commands)
      ((Session.start workingDirectory name).run commands).2 :=
  Session.follow_invariant (I := fun s journal => Journal.Holds journal s)
    (fun h hperform => h.step (Session.performs_of_ok hperform)
      (Session.journalStep hperform _))
    (.empty (.start workingDirectory name) (Module.named_empty name)) commands

/-! ## What is yielded twice -/

variable {n : Nat} {e' : Enrollment} {p' : Placement}

theorem location_eq_iff (h : journal.Holds s) (hp : p ∈ journal.located n)
    (hp' : p' ∈ journal.located n) :
    p.location = p'.location ↔ p.line = p'.line ∧ p.scope = p'.scope := by
  obtain ⟨hmem, rfl⟩ := mem_located.mp hp
  obtain ⟨hmem', hsame⟩ := mem_located.mp hp'
  obtain ⟨r, schema, hr, hschema, hnode⟩ := h.placed p hmem
  obtain ⟨r', schema', hr', hschema', hnode'⟩ := h.placed p' hmem'
  rw [hsame] at hr'
  cases hr.unique hr'
  cases hschema.symm.trans hschema'
  constructor
  · intro hlocation
    rw [hlocation, hnode', Option.some.injEq] at hnode
    obtain ⟨hline, hscope⟩ := Schema.locationNode_inj hnode
    exact ⟨hline.symm, hscope.symm⟩
  · rintro ⟨hline, hscope⟩
    rw [hline, hscope] at hnode
    exact h.rooted.indexed.eq_of_node? (schema.isDistinct_locationNode _ _) hnode hnode'

/-- A line that has a location in the active subprogram gets that one. -/
theorem graph_eq_of_locates (h : journal.Holds s) (hp : p ∈ journal.located n)
    (hactive : s.active? n = some p.scope) (hcommand : command.locates? = some (n, p.line))
    (hperform : s.Performs command answer s') : s'.module.graph = s.module.graph := by
  obtain ⟨hmem, rfl⟩ := mem_located.mp hp
  obtain ⟨r, schema, hr, hschema, hnode⟩ := h.placed p hmem
  rcases hperform.locates_cases hcommand with ⟨hgraph, -⟩ |
    ⟨r', schema', scope, hr', hschema', hscope, hgraph, -⟩
  · exact hgraph
  · cases hr.unique hr'
    cases hschema.symm.trans hschema'
    cases hscope.symm.trans (hr.active?_eq.symm.trans hactive)
    have hd := schema.isDistinct_locationNode p.line p.scope
    rw [hgraph, Graph.add_of_found ((h.rooted.indexed.shared _ _).mpr ⟨hnode, hd⟩)]

theorem identifies (h : journal.Holds s) (n : Nat) : journal.Identifies s n where
  modern_ascending hschema := by
    refine (h.ascending.filter _).imp_of_mem ?_
    intro e e' _ he' hlt
    obtain ⟨-, hn⟩ := mem_enrolled.mp he'
    exact hlt (hn ▸ hschema)
  legacy_eq_iff hschema e he e' he' := by
    obtain ⟨t, ht⟩ := Session.exists_tagged_of_schema? hschema
    obtain ⟨hmem, rfl⟩ := mem_enrolled.mp he
    obtain ⟨hmem', hsame⟩ := mem_enrolled.mp he'
    obtain ⟨r, hr, hin⟩ := h.enrolled e hmem
    obtain ⟨r', hr', hin'⟩ := h.enrolled e' hmem'
    rw [hsame] at hr'
    cases hr.unique ht
    cases hr'.unique ht
    exact hin.eq_iff hin' h.rooted.indexed
  location_eq_iff _ hp _ hp' := h.location_eq_iff hp hp'
  repeated _ hp hactive _ _ _ hcommand hperform :=
    h.graph_eq_of_locates hp hactive hcommand (Session.performs_of_ok hperform)

end Journal.Holds

namespace Session

/-- In every run, whatever recorders and edits take turns in it, the journal has every
registration and every line that is located, and it tells when what a recorder yields is the
same node. -/
theorem journal_identifies_run (workingDirectory : List UInt8) (name : String)
    (commands : List Command) (n : Nat) :
    ((start workingDirectory name).follow journalAfter {} commands).registered =
      (start workingDirectory name).registered commands ∧
    ((start workingDirectory name).follow journalAfter {} commands).locatedLines =
      (start workingDirectory name).locatedLines commands ∧
    Journal.Identifies ((start workingDirectory name).follow journalAfter {} commands)
      ((start workingDirectory name).run commands).2 n :=
  have ⟨hregistered, hlines⟩ := told_follow (start workingDirectory name) commands
  ⟨hregistered, hlines, (Journal.Holds.run workingDirectory name commands).identifies n⟩

/-- A function, a block in it and a cursor there. -/
def openedRun : List Command :=
  [.addFunction "main" ⟨.void, []⟩, .appendBlock ⟨0⟩ "entry", .openCursor ⟨0⟩]

/-- A tagged and a typed recorder register the function twice and mark a line in it twice. -/
def sharingRun : List Command :=
  openedRun ++
  [.createRecorder (.fixed .legacy) {} [0x2F, 0x61],
    .createRecorder (.fixed .modern) {} [0x2F, 0x61],
    .recorder 0 (.markSubprogram ⟨0⟩ "main" 1), .recorder 1 (.markSubprogram ⟨0⟩ "main" 1),
    .recorder 0 (.markLocation 0 2), .recorder 0 (.markLocation 0 2),
    .recorder 1 (.markLocation 0 2), .recorder 1 (.markLocation 0 2),
    .recorder 0 (.markSubprogram ⟨0⟩ "main" 1), .recorder 1 (.markSubprogram ⟨0⟩ "main" 1)]

/-- The tagged recorder skips the second mark and shares the subprogram.  The typed one locates
the line twice and makes a subprogram for each registration. -/
theorem journal_identifies_run_of_sharingRun :
    ∃ journal, (start [] "m").follow journalAfter {} sharingRun = journal ∧
      journal.registered = [(0, ⟨0⟩, "main", 1), (1, ⟨0⟩, "main", 1), (0, ⟨0⟩, "main", 1),
        (1, ⟨0⟩, "main", 1)] ∧
      journal.locatedLines = [(0, 2), (1, 2), (1, 2)] ∧
      (∀ e ∈ journal.enrolled 0, ∀ e' ∈ journal.enrolled 0, e.subprogram = e'.subprogram) ∧
      (journal.enrolled 1).Pairwise fun e e' => e.subprogram.index < e'.subprogram.index := by
  let declared := startDeclaring [] "m" "main" ⟨.void, []⟩
  have hdeclare := perform_start_addFunction [] "m" "main" ⟨.void, []⟩
  have hrun : ((start [] "m").run sharingRun).2 = (declared.run sharingRun.tail).2 :=
    run_cons hdeclare _
  have hlegacy : ((start [] "m").run sharingRun).2.schema? 0 = some .legacy := by
    rw [hrun]
    decide +kernel
  have hmodern : ((start [] "m").run sharingRun).2.schema? 1 = some .modern := by
    rw [hrun]
    decide +kernel
  obtain ⟨hregistered, hlines, htagged⟩ := journal_identifies_run [] "m" sharingRun 0
  obtain ⟨-, -, htyped⟩ := journal_identifies_run [] "m" sharingRun 1
  have hsubjects : (start [] "m").registered sharingRun = _ := follow_cons hdeclare _ _
  have hlocated : (start [] "m").locatedLines sharingRun = _ := follow_cons hdeclare _ _
  have hall : ∀ entry ∈ (start [] "m").registered sharingRun, entry.2 = (⟨0⟩, "main", 1) := by
    rw [hsubjects]
    decide +kernel
  rw [← hregistered] at hall
  refine ⟨_, rfl, ?_, ?_, ?_, htyped.modern_ascending hmodern⟩
  · rw [hregistered, hsubjects]
    decide +kernel
  · rw [hlines, hlocated]
    decide +kernel
  · have hsubject : ∀ e ∈ ((start [] "m").follow journalAfter {} sharingRun).enrolled 0,
        e.subject = (⟨0⟩, "main", 1) := fun e he =>
      hall (e.recorder, e.subject) (List.mem_map_of_mem (Journal.mem_enrolled.mp he).1)
    intro e he e' he'
    have hsame : e.subject = e'.subject := (hsubject e he).trans (hsubject e' he').symm
    rw [Enrollment.subject, Enrollment.subject, Prod.mk.injEq, Prod.mk.injEq] at hsame
    exact (htagged.legacy_eq_iff hlegacy e he e' he').mpr hsame

end Session

end DebugMetadata

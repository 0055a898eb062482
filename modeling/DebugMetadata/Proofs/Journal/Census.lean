import DebugMetadata.Proofs.Journal.Coverage

/-!
# The census of a graph

Where a run has a recorder that is alone, and what it marks is all that is recorded, the graph
holds what the journal needs and nothing else.  Every step keeps it so, and the number of nodes
follows from the journal.
-/

namespace DebugMetadata

/-! ## Recorders -/

namespace TypedRecorder

variable {journal : Journal} {own : List NodeId} {g : Graph}

theorem exists_covers_create (settings : Settings) (source : SourceFile) :
    ∃ own, own.Nodup ∧ own.length = Schema.modern.ownCount ∧
      Journal.Covers {} .modern own (create settings source ∅).2 := by
  simp only [create, Graph.addDebug_eq_add]
  have hfile := (Graph.HasOwn.empty .modern).add Graph.indexed_empty
    (.debug (fileNode source) false) rfl
  refine (hfile.add (Graph.indexed_empty.add _) _ rfl).exists_covers ?_
  simp [fileNode, unitNode]

/-- The empty tuple of the types is there for the variables. -/
theorem withType_eq (hg : g.Indexed) : withType g = Schema.modern.withType g := by
  have htype : Schema.modern.HasType (Schema.modern.withType g) := Schema.hasType_withType hg
  obtain ⟨types, type, htypes, -⟩ := htype
  have hindexed := (Schema.modern.grows_withType g).indexed hg
  have hwith : withType g = ((Schema.modern.withType g).add Schema.modern.typesNode).2 := rfl
  rw [hwith, Graph.add_of_found ((hindexed.shared _ _).mpr ⟨htypes, rfl⟩)]

theorem covers_addSubprogram (h : journal.Covers .modern own g) (hg : g.Indexed)
    (t : TypedRecorder) (name linkageName : String) (line : Nat) {e : Enrollment}
    (he : e.subprogram = (t.addSubprogram name linkageName line g).1) :
    (journal.enroll e).Covers .modern own (t.addSubprogram name linkageName line g).2.2 := by
  obtain ⟨type, locals, hid, hgraph⟩ := t.addSubprogram_eq name linkageName line g
  rw [withType_eq hg] at hid hgraph
  have hp : Schema.modern.purpose
      (.debug (t.subprogramNode name linkageName line type locals) true) = .subprogram := rfl
  rw [hgraph, ← Graph.add_of_isDistinct rfl]
  exact h.enroll hg hp (he.trans hid)

theorem covers_finalGraph (h : journal.Covers .modern own g) (hg : g.Indexed) (t : TypedRecorder)
    (n : Nat) : (journal.commit n).Covers .modern own (t.finalGraph g) := by
  have hunit : journal.Covers .modern own (g.addNamed unitListName t.unit) := h.of_nodes_eq rfl
  have hfinal : t.finalGraph g = (g.addNamed unitListName t.unit).addFlags Schema.modern.flags :=
    rfl
  rw [hfinal]
  exact hunit.commit (hg.addNamed _ _) n

end TypedRecorder

namespace TaggedRecorder

variable {journal : Journal} {own : List NodeId} {g : Graph} {m : Module}

theorem exists_hasOwn_addFile (source : SourceFile) : ∃ pair,
    (addFile source ∅).2.HasOwn .legacy
      [.tuple (pairOperands source), .tuple (fileOperands pair)] := by
  simp only [addFile, addPair, Graph.addTuple_eq_add]
  have hpair := (Graph.HasOwn.empty .legacy).add Graph.indexed_empty
    (.tuple (pairOperands source)) rfl
  have hindexed := Graph.indexed_empty.add (.tuple (pairOperands source))
  generalize (∅ : Graph).add (.tuple (pairOperands source)) = pair at hpair hindexed ⊢
  exact ⟨pair.1, hpair.add hindexed (.tuple (fileOperands pair.1)) rfl⟩

theorem exists_covers_create (settings : Settings) (source : SourceFile) :
    ∃ own, own.Nodup ∧ own.length = Schema.legacy.ownCount ∧
      Journal.Covers {} .legacy own (create settings source ∅).2 := by
  obtain ⟨pair, hpair, -⟩ := nodes_addFile Graph.indexed_empty source
  obtain ⟨pair', hfile⟩ := exists_hasOwn_addFile source
  have hindexed := (grows_addFile source ∅).indexed Graph.indexed_empty
  have hagain := addPair_eq hindexed.newList hpair
  simp only [create, hagain, Graph.addTuple_eq_add]
  generalize addFile source ∅ = file at hfile hindexed ⊢
  have hlist : file.2.newList.2.HasOwn .legacy _ := hfile.of_nodes_eq rfl
  have hempty := hlist.add hindexed.newList (.tuple emptyOperands) rfl
  refine (hempty.add (hindexed.newList.add _) _ rfl).exists_covers ?_
  simp [pairOperands, fileOperands, emptyOperands, unitOperands, Operand.i32]

/-- The empty tuple of the compile unit is the one that a subprogram refers to. -/
theorem withType_eq {empty : NodeId} (hg : g.Indexed)
    (hempty : g.node? empty = some (.tuple emptyOperands)) :
    withType g = Schema.legacy.withType g := by
  have hgrows := Schema.legacy.grows_withType g
  have hshared := ((hgrows.indexed hg).shared _ _).mpr ⟨hgrows.nodes.node? hempty, rfl⟩
  have hwith : withType g = ((Schema.legacy.withType g).add (.tuple emptyOperands)).2 := rfl
  rw [hwith, Graph.add_of_found hshared]

theorem covers_addSubprogram (h : journal.Covers .legacy own m.graph) (hm : m.graph.Indexed)
    {t : TaggedRecorder} (ht : t.Rooted m.graph) (name linkageName : String) (line : Nat)
    {e : Enrollment} (he : e.subprogram = (t.addSubprogram name linkageName line m).1) :
    (journal.enroll e).Covers .legacy own (t.addSubprogram name linkageName line m).2.2.graph := by
  obtain ⟨-, pair, empty, -, hfile, hempty, -⟩ := ht.unit
  obtain ⟨type, types, locals, -, -, -, hid, hgraph⟩ :=
    hfile.addSubprogram_eq hm name linkageName line
  rw [withType_eq hm hempty] at hid hgraph
  have hp : Schema.legacy.purpose (.tuple (t.subprogramOperands pair t.file name linkageName line
      type locals (m.findFunction? linkageName))) = .subprogram := rfl
  have hcovers := h.enroll hm hp (he.trans hid)
  rw [hgraph]
  generalize (Schema.legacy.withType m.graph).add _ = added at hcovers ⊢
  exact hcovers.of_nodes_eq rfl

theorem covers_finalGraph (h : journal.Covers .legacy own g) (hg : g.Indexed) (t : TaggedRecorder)
    (n : Nat) : (journal.commit n).Covers .legacy own (t.finalGraph g) := by
  have hunit : journal.Covers .legacy own (g.addNamed unitListName t.unit) := h.of_nodes_eq rfl
  have hfinal : t.finalGraph g = (g.addNamed unitListName t.unit).addFlags Schema.legacy.flags :=
    rfl
  rw [hfinal]
  exact hunit.commit (hg.addNamed _ _) n

end TaggedRecorder

/-- What a recorder is created with in an empty graph. -/
theorem Recorder.exists_covers_create {schema : Schema} {settings : Settings}
    {workingDirectory path : List UInt8} {r : Recorder} {m m' : Module} {event : Option Event}
    (h : create (some schema) settings workingDirectory path m = .ok (r, m', event))
    (hempty : m.graph = ∅) :
    (∃ own, own.Nodup ∧ own.length = schema.ownCount ∧
      Journal.Covers {} schema own m'.graph) ∧
    m'.graph.lists = ({} : Journal).lists schema ∧
    ∀ t, r = .tagged t → t.subprograms = ⟨0⟩ := by
  rcases create_cases h with ⟨hoff, -⟩ | ⟨source, hmodern, -, hr, hm, -⟩ |
    ⟨source, hlegacy, -, hr, hm, -⟩
  · cases hoff
  · cases hmodern
    have hcovers := TypedRecorder.exists_covers_create settings source
    have hlists := TypedRecorder.lists_create settings source ∅
    rw [hempty] at hr hm
    generalize TypedRecorder.create settings source ∅ = created at hcovers hlists hr hm
    rw [hr, hm]
    refine ⟨hcovers, hlists, ?_⟩
    intro t ht
    cases ht
  · cases hlegacy
    have hcovers := TaggedRecorder.exists_covers_create settings source
    have hlists := TaggedRecorder.lists_create settings source ∅
    have hsubprograms := TaggedRecorder.subprograms_create settings source ∅
    rw [hempty] at hr hm
    generalize TaggedRecorder.create settings source ∅ = created at hcovers hlists hsubprograms hr hm
    rw [hr, hm]
    refine ⟨hcovers, hlists, ?_⟩
    intro t ht
    cases ht
    exact hsubprograms

theorem Recorder.covers_finalize {journal : Journal} {schema : Schema} {own : List NodeId}
    {r : Recorder} {m : Module} (h : journal.Covers schema own m.graph) (hm : m.graph.Indexed)
    (hschema : r.schema? = some schema) (n : Nat) :
    (journal.commit n).Covers schema own (r.finalize m).1.graph := by
  cases r with
  | off => cases hschema
  | typed t =>
      cases hschema
      rw [fst_finalize_typed, TypedRecorder.fst_finalize]
      dsimp only
      exact TypedRecorder.covers_finalGraph h hm t n
  | tagged t =>
      cases hschema
      rw [fst_finalize_tagged, TaggedRecorder.fst_finalize]
      dsimp only
      exact TaggedRecorder.covers_finalGraph h hm t n

/-! ## Sessions -/

/-- What a command tells a recorder to register. -/
def Command.registers? : Command → Option (FunctionId × String × Nat)
  | .recorder _ (.markSubprogram function name line) => some (function, name, line)
  | _ => none

namespace Session

/-- What the commands of a run that succeed tell the recorders to register. -/
def registrations (s : Session) (commands : List Command) : List (FunctionId × String × Nat) :=
  s.follow (fun _ registered command => registered ++ command.registers?.toList) [] commands

variable {s s' : Session} {n : Nat} {r r' : Recorder} {command : Command} {answer : Answer}

/-- A command that keeps to marks makes no recorder. -/
theorem Performs.exists_of_keepsToMarks (h : s.Performs command answer s')
    (hkeeps : command.keepsToMarks = true) (hr' : s'.HasRecorder n r') :
    ∃ r, s.HasRecorder n r ∧ r.LeadsTo r' := by
  rcases h.leadsTo_cases hr' with ⟨r, hr, hleads, -⟩ | ⟨-, k, rfl, -⟩ |
    ⟨-, choice, settings, path, event, rfl, -⟩
  · exact ⟨r, hr, hleads⟩
  · cases hkeeps
  · cases hkeeps

/-- No recorder was created yet, and nothing was recorded. -/
structure Unrecorded (s : Session) : Prop where
  rooted : s.Rooted
  named : s.module.Named
  graph : s.module.graph = ∅
  none : ∀ n r, ¬ s.HasRecorder n r

namespace Unrecorded

theorem start (workingDirectory : List UInt8) (name : String) :
    (Session.start workingDirectory name).Unrecorded where
  rooted := .start workingDirectory name
  named := Module.named_empty name
  graph := rfl
  none n _ hr := Nat.not_lt_zero n hr.lt

theorem step (h : s.Unrecorded) (hperform : s.Performs command answer s')
    (hkeeps : command.keepsToMarks = true) : s'.Unrecorded where
  rooted := h.rooted.step hperform
  named := hperform.named h.named
  graph := by
    cases hperform with
    | markSubprogram function name line hslot hmark => exact absurd ⟨_, hslot, rfl⟩ (h.none _ _)
    | markLocation line hslot hc hmark => exact absurd ⟨_, hslot, rfl⟩ (h.none _ _)
    | finalize hslot => exact absurd ⟨_, hslot, rfl⟩ (h.none _ _)
    | _ => first | exact h.graph | cases hkeeps
  none n r hr := by
    obtain ⟨r', hr', -⟩ := hperform.exists_of_keepsToMarks hkeeps hr
    exact h.none n r' hr'

theorem size_recorders (h : s.Unrecorded) : s.recorders.size = 0 := by
  rcases Nat.eq_zero_or_pos s.recorders.size with hsize | hpos
  · exact hsize
  · exact absurd ⟨_, Array.getElem?_eq_getElem hpos, rfl⟩ (h.none 0 _)

end Unrecorded

end Session

namespace Journal

/-- The session has one recorder, of this schema, and its graph holds what the journal needs. -/
structure HoldsAlone (journal : Journal) (schema : Schema) (own : List NodeId) (s : Session) : Prop
    extends journal.Holds s where
  covers : journal.Covers schema own s.module.graph
  lists : s.module.graph.lists = journal.lists schema
  alone : ∀ n r, s.HasRecorder n r → n = 0 ∧ r.schema? = some schema
  pushes : ∀ n t, s.HasRecorder n (.tagged t) → t.subprograms = ⟨0⟩

namespace HoldsAlone

variable {journal journal' : Journal} {schema : Schema} {own : List NodeId} {s s' : Session}
  {command : Command} {answer : Answer}

private theorem covers_step (h : journal.HoldsAlone schema own s)
    (hkeeps : command.keepsToMarks = true) (hstep : s.JournalStep s' journal command journal') :
    journal'.Covers schema own s'.module.graph := by
  have hindexed := h.rooted.indexed
  cases hstep with
  | enrolledTyped function name line ht hf hgraph =>
      cases (h.alone _ _ ht).2
      rw [hgraph]
      exact TypedRecorder.covers_addSubprogram h.covers hindexed _ _ _ _ rfl
  | @enrolledTagged n t f function name line ht hf hgraph =>
      cases (h.alone _ _ ht).2
      have hcovers (e : Enrollment) := TaggedRecorder.covers_addSubprogram h.covers hindexed
        (h.rooted.hasRecorder ht) name f.name line (e := e)
      rw [← hgraph] at hcovers
      generalize t.addSubprogram name f.name line s.module = added at hcovers ⊢
      exact hcovers _ rfl
  | placed line hr hschema hscope hgraph =>
      cases (h.alone _ _ hr).2.symm.trans hschema
      rw [hgraph]
      exact h.covers.place hindexed (schema.purpose_locationNode _ _) rfl
  | committed hr hgraph =>
      rw [hgraph]
      exact Recorder.covers_finalize h.covers hindexed (h.alone _ _ hr).2 _
  | silent hgraph =>
      rw [hgraph hkeeps]
      exact h.covers

private theorem lists_step (h : journal.HoldsAlone schema own s)
    (hkeeps : command.keepsToMarks = true) (hstep : s.JournalStep s' journal command journal') :
    s'.module.graph.lists = journal'.lists schema := by
  cases hstep with
  | enrolledTyped function name line ht hf hgraph =>
      cases (h.alone _ _ ht).2
      rw [hgraph, TypedRecorder.lists_addSubprogram, h.lists]
      rfl
  | @enrolledTagged n t f function name line ht hf hgraph =>
      cases (h.alone _ _ ht).2
      rw [hgraph, TaggedRecorder.lists_addSubprogram, h.pushes _ _ ht, h.lists]
      generalize (t.addSubprogram name f.name line s.module).1 = id
      simp [Journal.lists, enroll]
  | placed line hr hschema hscope hgraph =>
      rw [hgraph, Graph.lists_add, h.lists]
      cases schema <;> rfl
  | committed hr hgraph =>
      rw [hgraph, Recorder.lists_finalize, h.lists]
      cases schema <;> rfl
  | silent hgraph =>
      rw [hgraph hkeeps]
      exact h.lists

theorem step (h : journal.HoldsAlone schema own s) (hkeeps : command.keepsToMarks = true)
    (hok : s.perform command = .ok (answer, s')) :
    (s.journalAfter journal command).HoldsAlone schema own s' := by
  have hperform := Session.performs_of_ok hok
  have hstep := Session.journalStep hok journal
  refine { h.toHolds.step hperform hstep with
    covers := h.covers_step hkeeps hstep
    lists := h.lists_step hkeeps hstep
    alone := ?_
    pushes := ?_ }
  · intro n r' hr'
    obtain ⟨r, hr, hleads⟩ := hperform.exists_of_keepsToMarks hkeeps hr'
    obtain ⟨hn, hschema⟩ := h.alone n r hr
    exact ⟨hn, hleads.schema?_eq.trans hschema⟩
  · intro n t' ht'
    obtain ⟨r, hr, hleads⟩ := hperform.exists_of_keepsToMarks hkeeps ht'
    cases hleads with
    | tagged hleads => exact hleads.subprograms.trans (h.pushes n _ hr)

/-- What a command that succeeds tells the recorder to register is in the journal. -/
theorem subject_journalAfter (h : journal.HoldsAlone schema own s)
    (hok : s.perform command = .ok (answer, s')) :
    (s.journalAfter journal command).enrollments.map Enrollment.subject =
      journal.enrollments.map Enrollment.subject ++ command.registers?.toList := by
  have hsubjects (journal : Journal) :
      journal.registered.map Prod.snd = journal.enrollments.map Enrollment.subject :=
    List.map_map
  have hregisters : (s.registered? command).map Prod.snd = command.registers? := by
    cases Session.performs_of_ok hok with
    | @markSubprogram n slot function name line r m event hslot hmark =>
        have hr : s.HasRecorder n slot.recorder := ⟨slot, hslot, rfl⟩
        rw [Session.registered?, hr.schema?_eq, (h.alone n _ hr).2]
        rfl
    | _ => rfl
  have hregistered := congrArg (List.map Prod.snd) (Session.journalStep hok journal).told.1
  rwa [List.map_append, hsubjects, hsubjects, ← Option.toList_map, hregisters] at hregistered

/-- The number of nodes is told by the journal. -/
theorem size_eq_nodeCount (h : journal.HoldsAlone schema own s) (hnodup : own.Nodup)
    (hcount : own.length = schema.ownCount) :
    s.module.graph.size = journal.nodeCount schema := by
  have hmem {e : Enrollment} (he : e ∈ journal.enrollments) :
      e ∈ journal.enrolled 0 ∧ s.schema? e.recorder = some schema := by
    obtain ⟨r, hr, -⟩ := h.enrolled e he
    obtain ⟨hn, hschema⟩ := h.alone _ r hr
    exact ⟨mem_enrolled.mpr ⟨he, hn⟩, hr.schema?_eq.trans hschema⟩
  have hsites : (journal.placements.map (·.location)).toFinset.card = journal.sites.card := by
    apply card_toFinset_map_eq
    intro p hp p' hp'
    obtain ⟨r, -, hr, -⟩ := h.placed p hp
    obtain ⟨r', -, hr', -⟩ := h.placed p' hp'
    rw [h.location_eq_iff (mem_located.mpr ⟨hp, (h.alone _ r hr).1⟩)
      (mem_located.mpr ⟨hp', (h.alone _ r' hr').1⟩), Prod.mk.injEq, and_comm]
  rw [h.covers.size_eq h.rooted.indexed hnodup, hcount, hsites]
  cases schema with
  | modern =>
      -- Subprograms of a typed recorder are appended, so every registration counts.
      have hsubprograms : (journal.enrollments.map (·.subprogram)).Nodup := by
        rw [List.Nodup, List.pairwise_map]
        refine h.ascending.imp_of_mem ?_
        intro e e' _ he' hlt hsame
        exact absurd (congrArg NodeId.index hsame) (Nat.ne_of_lt (hlt (hmem he').2))
      rw [List.toFinset_card_of_nodup hsubprograms, List.length_map]
      rfl
  | legacy =>
      -- Those of a tagged one are shared, so what is registered counts once.
      have hsubprograms : (journal.enrollments.map (·.subprogram)).toFinset.card =
          journal.subjects.card := by
        apply card_toFinset_map_eq
        intro e he e' he'
        obtain ⟨hin, hschema⟩ := hmem he
        rw [(mem_enrolled.mp hin).2] at hschema
        rw [(h.toHolds.identifies 0).legacy_eq_iff hschema e hin e' (hmem he').1,
          Enrollment.subject, Enrollment.subject, Prod.mk.injEq, Prod.mk.injEq]
      rw [hsubprograms]
      rfl

end HoldsAlone

variable {schema : Schema} {s s' : Session} {answer : Answer} {choice : RecorderChoice}
  {settings : Settings} {path : List UInt8}

/-- The journal of a recorder that has just been created. -/
theorem exists_holdsAlone (h : s.Unrecorded) (hschema : choice.schema settings = some schema)
    (hperform : s.Performs (.createRecorder choice settings path) answer s') :
    ∃ own, own.Nodup ∧ own.length = schema.ownCount ∧ HoldsAlone {} schema own s' := by
  have hholds := (Holds.empty h.rooted h.named).kept hperform
  obtain ⟨r, event, hcreate⟩ : ∃ r event, Recorder.create (some schema) settings
      s.workingDirectory path s.module = .ok (r, s'.module, event) := by
    cases hperform with
    | createRecorder _ _ _ hcreate => exact ⟨_, _, hschema ▸ hcreate⟩
  have hsole : ∀ n r', s'.HasRecorder n r' → n = 0 ∧ r' = r := by
    intro n r' hr'
    rcases hperform.leadsTo_cases hr' with ⟨r₀, hr₀, -⟩ | ⟨-, k, hcommand, -⟩ |
      ⟨hn, choice', settings', path', event', hcommand, hcreate'⟩
    · exact absurd hr₀ (h.none n r₀)
    · cases hcommand
    · cases hcommand
      rw [hschema, hcreate] at hcreate'
      cases hcreate'
      exact ⟨hn.trans h.size_recorders, rfl⟩
  obtain ⟨⟨own, hnodup, hcount, hcovers⟩, hlists, hpushes⟩ :=
    Recorder.exists_covers_create hcreate h.graph
  refine ⟨own, hnodup, hcount, { hholds with
    covers := hcovers
    lists := hlists
    alone := ?_
    pushes := fun n t ht => hpushes t (hsole n _ ht).2.symm }⟩
  intro n r' hr'
  obtain ⟨hn, rfl⟩ := hsole n r' hr'
  exact ⟨hn, Recorder.schema?_create hcreate⟩

end Journal

namespace Session

/-- A recorder that is the only one in a run, in which all that is recorded is what it marks,
fills the graph with exactly what is needed: its own nodes, a type once a function is
registered, the subprograms, the locations and the flags once it is finalized.  A typed
recorder makes no growable list, and a tagged one has a list of all its registrations, which
are those that the commands tell it of. -/
theorem graph_holds_what_is_needed (name : String) (choice : RecorderChoice) (settings : Settings)
    {workingDirectory path : List UInt8} {before after : List Command} {schema : Schema}
    {source : SourceFile}
    (hbefore : ∀ command ∈ before, command.keepsToMarks = true)
    (hafter : ∀ command ∈ after, command.keepsToMarks = true)
    (hschema : choice.schema settings = some schema)
    (hsource : SourceFile.ofPath workingDirectory path = .ok source) :
    ∃ s, ((start workingDirectory name).run before).2.perform
        (.createRecorder choice settings path) = .ok (.recorder 0, s) ∧
      (s.follow journalAfter {} after).enrollments.map Enrollment.subject =
        s.registrations after ∧
      (s.run after).2.module.graph.size = (s.follow journalAfter {} after).nodeCount schema ∧
      (s.run after).2.module.graph.lists = (s.follow journalAfter {} after).lists schema := by
  have hunrecorded : ((start workingDirectory name).run before).2.Unrecorded :=
    run_keeps_of_forall Unrecorded (fun h hkeeps hperform => h.step hperform hkeeps)
      (.start workingDirectory name) hbefore
  have hdirectory : ((start workingDirectory name).run before).2.workingDirectory =
      workingDirectory :=
    run_keeps (·.workingDirectory = workingDirectory)
      (fun h hperform => hperform.workingDirectory_eq.trans h) rfl before
  generalize ((start workingDirectory name).run before).2 = begun at hunrecorded hdirectory ⊢
  rw [← hdirectory] at hsource
  obtain ⟨s, hcreate⟩ := perform_createRecorder settings hschema hsource
  rw [hunrecorded.size_recorders] at hcreate
  obtain ⟨own, hnodup, hcount, hholds⟩ :=
    Journal.exists_holdsAlone hunrecorded hschema (performs_of_ok hcreate)
  have hrun : Journal.HoldsAlone (s.follow journalAfter {} after) schema own (s.run after).2 :=
    invariant_of_meets_ok (P := fun _ _ command => command.keepsToMarks)
      (I := fun s journal => Journal.HoldsAlone journal schema own s)
      (fun h hkeeps hperform => h.step hkeeps hperform) hholds (meets_of_forall hafter)
  have hregistered : (s.follow journalAfter {} after).enrollments.map Enrollment.subject =
      s.registrations after :=
    map_follow_of_meets (P := fun _ _ command => command.keepsToMarks)
      (I := fun s journal => Journal.HoldsAlone journal schema own s)
      (f := fun journal => journal.enrollments.map Enrollment.subject)
      (fun h hkeeps hperform => ⟨h.step hkeeps hperform, h.subject_journalAfter hperform⟩)
      hholds (meets_of_forall hafter)
  exact ⟨s, hcreate, hregistered, hrun.size_eq_nodeCount hnodup hcount, hrun.lists⟩

/-- The function is registered twice and a line in it marked twice, before the recorder is
finalized twice. -/
def repeatingRun : List Command :=
  [.recorder 0 (.markSubprogram ⟨0⟩ "main" 1), .recorder 0 (.markLocation 0 2),
    .recorder 0 (.markLocation 0 2), .recorder 0 (.markSubprogram ⟨0⟩ "main" 1),
    .recorder 0 .finalize, .recorder 0 .finalize]

/-- The tagged recorder needs one subprogram for both registrations, one location and one
flag, beside its own nodes and the type. -/
theorem graph_holds_what_is_needed_of_repeatingRun :
    (∀ command ∈ openedRun, command.keepsToMarks = true) ∧
    (∀ command ∈ repeatingRun, command.keepsToMarks = true) ∧
    SourceFile.ofPath [] [0x2F, 0x61] = .ok ⟨"/", "a"⟩ ∧
    ∃ s, ((start [] "m").run openedRun).2.perform
        (.createRecorder (.fixed .legacy) {} [0x2F, 0x61]) = .ok (.recorder 0, s) ∧
      s.registrations repeatingRun = [(⟨0⟩, "main", 1), (⟨0⟩, "main", 1)] ∧
      (s.run repeatingRun).2.module.graph.size = 4 + 2 + 1 + 1 + 1 ∧
      (s.run repeatingRun).2.module.graph.lists.map Array.size = #[2] := by
  have hopened : ∀ command ∈ openedRun, command.keepsToMarks = true := by decide
  have hrepeating : ∀ command ∈ repeatingRun, command.keepsToMarks = true := by decide
  have hsource : SourceFile.ofPath [] [0x2F, 0x61] = .ok ⟨"/", "a"⟩ := by decide +kernel
  let declared := startDeclaring [] "m" "main" ⟨.void, []⟩
  have hdeclare := perform_start_addFunction [] "m" "main" ⟨.void, []⟩
  have hrun : ((Session.start [] "m").run openedRun).2 = (declared.run openedRun.tail).2 :=
    run_cons hdeclare _
  obtain ⟨s, hcreate, hregistered, hsize, hlists⟩ :=
    graph_holds_what_is_needed "m" (.fixed .legacy) {} hopened hrepeating rfl hsource
  have hcreate' := hcreate
  rw [hrun] at hcreate'
  -- The journal is that of the run from the creation on, in which nothing else is unknown.
  have hjournal : s.follow journalAfter {} repeatingRun =
      (declared.run openedRun.tail).2.follow journalAfter {}
        (.createRecorder (.fixed .legacy) {} [0x2F, 0x61] :: repeatingRun) := by
    rw [follow_cons hcreate', journalAfter, hcreate']
  rw [hjournal] at hregistered hsize hlists
  refine ⟨hopened, hrepeating, hsource, s, hcreate, ?_, ?_, ?_⟩
  · rw [← hregistered]
    decide +kernel
  · rw [hsize]
    decide +kernel
  · rw [hlists]
    decide +kernel

end Session

end DebugMetadata

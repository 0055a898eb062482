import DebugMetadata.Proofs.Footprint.Recorders

/-!
# Journals

A journal is kept beside a run and says what the recorders have yielded: the subprogram that
is active after a function was registered, the location that a line has come to, and which
recorders were finalized.  It is kept from what the commands answer and from what can be read
off the session after them.  What it should have entries for is told by the commands: every
registration with a recorder that is on, and every line that such a recorder does not skip.
-/

namespace DebugMetadata

/-- A function that a recorder has registered. -/
structure Enrollment where
  recorder : Nat
  function : FunctionId
  name : String
  line : Nat
  /-- The subprogram that was active afterwards. -/
  subprogram : NodeId
  deriving DecidableEq, Repr

/-- What was registered. -/
def Enrollment.subject (e : Enrollment) : FunctionId × String × Nat :=
  (e.function, e.name, e.line)

/-- A line that a recorder has located. -/
structure Placement where
  recorder : Nat
  line : Nat
  /-- The subprogram that was active. -/
  scope : NodeId
  location : NodeId
  deriving DecidableEq, Repr

/-- What the recorders of a run have yielded, in order. -/
structure Journal where
  enrollments : List Enrollment := []
  placements : List Placement := []
  /-- The recorders that were finalized. -/
  commits : List Nat := []
  deriving DecidableEq, Repr

namespace Journal

def enroll (journal : Journal) (e : Enrollment) : Journal :=
  { journal with enrollments := journal.enrollments ++ [e] }

def place (journal : Journal) (p : Placement) : Journal :=
  { journal with placements := journal.placements ++ [p] }

def commit (journal : Journal) (n : Nat) : Journal :=
  { journal with commits := journal.commits ++ [n] }

/-- What was registered, each with the recorder. -/
def registered (journal : Journal) : List (Nat × FunctionId × String × Nat) :=
  journal.enrollments.map fun e => (e.recorder, e.subject)

/-- The lines that were located, each with the recorder. -/
def locatedLines (journal : Journal) : List (Nat × Nat) :=
  journal.placements.map fun p => (p.recorder, p.line)

end Journal

/-- The recorder that is asked for the location of a line, and the line. -/
def Command.locates? : Command → Option (Nat × Nat)
  | .recorder n (.markLocation _ line) | .recorder n (.addLocation line) => some (n, line)
  | _ => none

/-- Whether the command leaves it to the marks of a recorder to record. -/
def Command.keepsToMarks : Command → Bool
  | .edit _ | .addFlag _ | .createRecorder _ _ _ | .recorder _ .clone
  | .recorder _ (.addSubprogram _ _ _) | .recorder _ (.addLocation _) => false
  | _ => true

/-- The node that the schema has for a line of a subprogram. -/
def Schema.locationNode (line : Nat) (scope : NodeId) : Schema → Node
  | .modern => .debug (TypedRecorder.locationNode line scope) false
  | .legacy => .tuple (TaggedRecorder.locationOperands line scope)

namespace Session

def active? (s : Session) (n : Nat) : Option NodeId :=
  s.recorders[n]?.bind (·.recorder.active?)

/-- The location that a command has yielded.  What is added is the answer, the mark of a typed
recorder answers with the location of the cursor, and the marker of a tagged one has it
attached. -/
def yielded? (s : Session) (n : Nat) (answer : Answer) (s' : Session) : Option NodeId :=
  match answer with
  | .node id => some id
  | .location location =>
    match s.schema? n with
    | some .modern => location
    | some .legacy =>
      (s'.module.instruction? ⟨s.module.instructions.size⟩).bind
        (·.attachments.find? TaggedRecorder.locationKey)
    | none => none
  | _ => none

/-- The journal after a command that succeeds. -/
def journalAfter (s : Session) (journal : Journal) (command : Command) : Journal :=
  match s.perform command with
  | .error _ => journal
  | .ok (answer, s') =>
    match command with
    | .recorder n (.markSubprogram function name line) =>
      match s'.active? n with
      | some subprogram => journal.enroll ⟨n, function, name, line, subprogram⟩
      | none => journal
    | .recorder n (.markLocation _ line) | .recorder n (.addLocation line) =>
      match s.active? n, s.yielded? n answer s' with
      | some scope, some location => journal.place ⟨n, line, scope, location⟩
      | _, _ => journal
    | .recorder n .finalize => journal.commit n
    | _ => journal

end Session

/-! ## What the commands tell the recorders -/

/-- Whether a mark of the line comes to a location.  A recorder that is off locates nothing, and
a tagged one skips the line that it marked last. -/
def Recorder.locates (line : Nat) : Recorder → Bool
  | .off => false
  | .typed _ => true
  | .tagged t => t.lastLine ≠ some line

namespace Session

/-- What a command has a recorder register, if the command succeeds.  One that is off registers
nothing. -/
def registered? (s : Session) : Command → Option (Nat × FunctionId × String × Nat)
  | .recorder n (.markSubprogram function name line) =>
    (s.schema? n).map fun _ => (n, function, name, line)
  | _ => none

/-- The line that a command has a recorder locate, if the command succeeds. -/
def located? (s : Session) : Command → Option (Nat × Nat)
  | .recorder n (.markLocation _ line) =>
    if s.recorders[n]?.any (·.recorder.locates line) then some (n, line) else none
  | .recorder n (.addLocation line) => some (n, line)
  | _ => none

/-- What the commands of a run that succeed have the recorders register, in order. -/
def registered (s : Session) (commands : List Command) : List (Nat × FunctionId × String × Nat) :=
  s.follow (fun s told command => told ++ (s.registered? command).toList) [] commands

/-- The lines that the commands of a run that succeed have the recorders locate, in order. -/
def locatedLines (s : Session) (commands : List Command) : List (Nat × Nat) :=
  s.follow (fun s told command => told ++ (s.located? command).toList) [] commands

end Session

/-! ## The recorder of a number -/

namespace Session

variable {s s' : Session} {n : Nat} {r : Recorder} {schema : Schema} {slot : RecorderSlot}
  {command : Command} {answer : Answer} {journal journal' : Journal} {line : Nat}

theorem HasRecorder.active?_eq (h : s.HasRecorder n r) : s.active? n = r.active? := by
  obtain ⟨slot, hslot, rfl⟩ := h
  rw [active?, hslot]
  rfl

/-! ## Lines that are located -/

theorem located?_markLocation (h : s.HasRecorder n r) (k line : Nat) :
    s.located? (.recorder n (.markLocation k line)) =
      if r.locates line then some (n, line) else none := by
  obtain ⟨slot, hslot, rfl⟩ := h
  rw [located?, hslot, Option.any_some]

/-- What a recorder does to the graph when it is asked for the location of a line. -/
theorem Performs.locates_cases (h : s.Performs command answer s')
    (hcommand : command.locates? = some (n, line)) :
    (s'.module.graph = s.module.graph ∧ s.yielded? n answer s' = none ∧
      s.located? command = none) ∨
    ∃ r schema scope, s.HasRecorder n r ∧ r.schema? = some schema ∧ r.active? = some scope ∧
      s'.module.graph = (s.module.graph.add (schema.locationNode line scope)).2 ∧
      s.yielded? n answer s' = some (s.module.graph.add (schema.locationNode line scope)).1 ∧
      s.located? command = some (n, line) := by
  cases h with
  | @markLocation n k slot c c' line r m event hslot hc hmark =>
      cases hcommand
      have hr : s.HasRecorder n _ := ⟨_, hslot, rfl⟩
      have hlocated := located?_markLocation hr k line
      rcases Recorder.markLocation_cases hmark with ⟨hoff, -, -, rfl, -⟩ |
        ⟨t, scope, htyped, hactive, -, rfl, rfl, -⟩ | ⟨t, htagged, hline, -, -, rfl, -⟩ |
        ⟨t, scope, htagged, hline, hactive, -, -, -, rfl, -⟩
      · rw [hoff] at hr hlocated
        refine .inl ⟨rfl, ?_, hlocated⟩
        simp only [yielded?, hr.schema?_eq, Recorder.schema?]
      · rw [htyped] at hr hlocated
        refine .inr ⟨_, .modern, scope, hr, rfl, hactive, rfl, ?_, hlocated⟩
        simp only [yielded?, hr.schema?_eq, Recorder.schema?]
        rfl
      · rw [htagged] at hr hlocated
        have hnone : s.module.instruction? ⟨s.module.instructions.size⟩ = none :=
          Array.getElem?_eq_none (Nat.le_refl _)
        refine .inl ⟨rfl, ?_, hlocated.trans (if_neg ?_)⟩
        · simp only [yielded?, hr.schema?_eq, Recorder.schema?]
          exact congrArg (Option.bind · _) hnone
        · simp [Recorder.locates, hline]
      · rw [htagged] at hr hlocated
        refine .inr ⟨_, .legacy, scope, hr, rfl, hactive, rfl, ?_, hlocated.trans (if_pos ?_)⟩
        · simp only [yielded?, hr.schema?_eq, Recorder.schema?]
          exact (congrArg (Option.bind · _) (Module.instruction?_pushInstruction_size _ _)).trans
            (TaggedRecorder.find?_markerAt _ _ _)
        · exact decide_eq_true hline
  | addLocation line hslot hexposed hadd =>
      cases hcommand
      have hr : s.HasRecorder n _ := ⟨_, hslot, rfl⟩
      rcases Recorder.addLocation?_cases hadd with ⟨t, scope, htyped, hactive, rfl, rfl⟩ |
        ⟨t, scope, htagged, hactive, rfl, rfl⟩
      · rw [htyped] at hr
        exact .inr ⟨_, .modern, scope, hr, rfl, hactive, rfl, rfl, rfl⟩
      · rw [htagged] at hr
        exact .inr ⟨_, .legacy, scope, hr, rfl, hactive, rfl, rfl, rfl⟩
  | _ => cases hcommand

/-! ## Steps -/

/-- What a command does to the journal and to the graph, with what it tells a recorder. -/
inductive JournalStep (s s' : Session) (journal : Journal) (command : Command) : Journal → Prop where
  | enrolledTyped {n : Nat} {t : TypedRecorder} {f : Function} (function : FunctionId)
      (name : String) (line : Nat) (ht : s.HasRecorder n (.typed t))
      (hf : s.module.function? function = some f)
      (hgraph : s'.module.graph = (t.addSubprogram name f.name line s.module.graph).2.2)
      (hregistered : s.registered? command = some (n, function, name, line))
      (hlocated : s.located? command = none) :
    JournalStep s s' journal command (journal.enroll
      ⟨n, function, name, line, (t.addSubprogram name f.name line s.module.graph).1⟩)
  | enrolledTagged {n : Nat} {t : TaggedRecorder} {f : Function} (function : FunctionId)
      (name : String) (line : Nat) (ht : s.HasRecorder n (.tagged t))
      (hf : s.module.function? function = some f)
      (hgraph : s'.module.graph = (t.addSubprogram name f.name line s.module).2.2.graph)
      (hregistered : s.registered? command = some (n, function, name, line))
      (hlocated : s.located? command = none) :
    JournalStep s s' journal command (journal.enroll
      ⟨n, function, name, line, (t.addSubprogram name f.name line s.module).1⟩)
  | placed {n : Nat} {r : Recorder} {schema : Schema} {scope : NodeId} (line : Nat)
      (hr : s.HasRecorder n r) (hschema : r.schema? = some schema)
      (hscope : r.active? = some scope)
      (hgraph : s'.module.graph = (s.module.graph.add (schema.locationNode line scope)).2)
      (hregistered : s.registered? command = none)
      (hlocated : s.located? command = some (n, line)) :
    JournalStep s s' journal command (journal.place
      ⟨n, line, scope, (s.module.graph.add (schema.locationNode line scope)).1⟩)
  | committed {n : Nat} {r : Recorder} (hr : s.HasRecorder n r)
      (hgraph : s'.module.graph = (r.finalize s.module).1.graph)
      (hregistered : s.registered? command = none) (hlocated : s.located? command = none) :
    JournalStep s s' journal command (journal.commit n)
  | silent (hgraph : command.keepsToMarks = true → s'.module.graph = s.module.graph)
      (hregistered : s.registered? command = none) (hlocated : s.located? command = none) :
    JournalStep s s' journal command journal

private theorem registered?_markSubprogram (h : s.HasRecorder n r) (function : FunctionId)
    (name : String) (line : Nat) :
    s.registered? (.recorder n (.markSubprogram function name line)) =
      r.schema?.map fun _ => (n, function, name, line) := by
  rw [registered?, h.schema?_eq]

private theorem journalStep_markSubprogram {function : FunctionId} {name : String}
    {event : Option Event} (hr : s.HasRecorder n slot.recorder) (hr' : s'.HasRecorder n r)
    (hmark : slot.recorder.markSubprogram s.module function name line =
      .ok (r, s'.module, event)) :
    JournalStep s s' journal (.recorder n (.markSubprogram function name line))
      (match s'.active? n with
      | some subprogram => journal.enroll ⟨n, function, name, line, subprogram⟩
      | none => journal) := by
  have hregistered := registered?_markSubprogram hr function name line
  rw [hr'.active?_eq]
  rcases Recorder.markSubprogram_cases hmark with ⟨hoff, hoff', hm, -⟩ |
    ⟨t, f, ht, hf, ht', hm, -⟩ | ⟨t, f, ht, hf, ht', hm, -⟩
  · rw [hoff] at hregistered
    rw [hoff']
    exact .silent (fun _ => congrArg Module.graph hm) hregistered rfl
  · rw [ht] at hr hregistered
    rw [ht', Recorder.active?, TypedRecorder.recorder_addSubprogram]
    exact .enrolledTyped function name line hr hf (congrArg Module.graph hm) hregistered rfl
  · rw [ht] at hr hregistered
    rw [ht', Recorder.active?, TaggedRecorder.recorder_addSubprogram]
    exact .enrolledTagged function name line hr hf (congrArg Module.graph hm) hregistered rfl

private theorem registered?_of_locates? (h : command.locates? = some (n, line)) :
    s.registered? command = none := by
  unfold Command.locates? at h
  split at h
  · rfl
  · rfl
  · cases h

private theorem journalStep_locates (h : s.Performs command answer s')
    (hcommand : command.locates? = some (n, line)) :
    JournalStep s s' journal command
      (match s.active? n, s.yielded? n answer s' with
      | some scope, some location => journal.place ⟨n, line, scope, location⟩
      | _, _ => journal) := by
  have hregistered : s.registered? command = none := registered?_of_locates? hcommand
  rcases h.locates_cases hcommand with ⟨hgraph, hnone, hlocated⟩ |
    ⟨r, schema, scope, hr, hschema, hactive, hgraph, hlocation, hlocated⟩
  · rw [hnone]
    cases s.active? n <;> exact .silent (fun _ => hgraph) hregistered hlocated
  · rw [hr.active?_eq, hactive, hlocation]
    exact .placed line hr hschema hactive hgraph hregistered hlocated

/-- Every command that succeeds does one of these. -/
theorem journalStep (hperform : s.perform command = .ok (answer, s')) (journal : Journal) :
    JournalStep s s' journal command (s.journalAfter journal command) := by
  have h := performs_of_ok hperform
  simp only [journalAfter, hperform]
  cases h with
  | markSubprogram function name line hslot hmark =>
      exact journalStep_markSubprogram ⟨_, hslot, rfl⟩
        ⟨_, getElem?_setRecorder_self hslot _, rfl⟩ hmark
  | markLocation line hslot hc hmark =>
      exact journalStep_locates (.markLocation line hslot hc hmark) rfl
  | addLocation line hslot hexposed hadd =>
      exact journalStep_locates (.addLocation line hslot hexposed hadd) rfl
  | finalize hslot => exact .committed ⟨_, hslot, rfl⟩ rfl rfl rfl
  | edit edit hedit => exact .silent (fun h => by cases h) rfl rfl
  | addFlag flag => exact .silent (fun h => by cases h) rfl rfl
  | createRecorder choice settings path hcreate => exact .silent (fun h => by cases h) rfl rfl
  | clone hslot hexposed => exact .silent (fun h => by cases h) rfl rfl
  | addSubprogram name linkageName line hslot hexposed hadd =>
      exact .silent (fun h => by cases h) rfl rfl
  | _ => exact .silent (fun _ => rfl) rfl rfl

/-- The journal has one more registration exactly if the command makes one, and one more line
exactly if the command has one located. -/
theorem JournalStep.told (h : s.JournalStep s' journal command journal') :
    journal'.registered = journal.registered ++ (s.registered? command).toList ∧
    journal'.locatedLines = journal.locatedLines ++ (s.located? command).toList := by
  cases h with
  | enrolledTyped function name line ht hf hgraph hregistered hlocated =>
      rw [hregistered, hlocated]
      exact ⟨List.map_append, (List.append_nil _).symm⟩
  | enrolledTagged function name line ht hf hgraph hregistered hlocated =>
      rw [hregistered, hlocated]
      exact ⟨List.map_append, (List.append_nil _).symm⟩
  | placed line hr hschema hscope hgraph hregistered hlocated =>
      rw [hregistered, hlocated]
      exact ⟨(List.append_nil _).symm, List.map_append⟩
  | committed hr hgraph hregistered hlocated =>
      rw [hregistered, hlocated]
      exact ⟨(List.append_nil _).symm, (List.append_nil _).symm⟩
  | silent hgraph hregistered hlocated =>
      rw [hregistered, hlocated]
      exact ⟨(List.append_nil _).symm, (List.append_nil _).symm⟩

/-- The journal of a run has an entry for every registration and for every line that is
located, in order. -/
theorem told_follow (s : Session) (commands : List Command) :
    (s.follow journalAfter {} commands).registered = s.registered commands ∧
    (s.follow journalAfter {} commands).locatedLines = s.locatedLines commands :=
  ⟨map_follow (f := Journal.registered) (fun hok => (journalStep hok _).told.1) s {} commands,
    map_follow (f := Journal.locatedLines) (fun hok => (journalStep hok _).told.2) s {} commands⟩

end Session

end DebugMetadata

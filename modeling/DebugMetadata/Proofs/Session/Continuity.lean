import DebugMetadata.Proofs.Session.Roots

/-!
# Recorders over time

A recorder keeps its number, its form and its nodes, whatever is done to the session.
What is new under a number is a clone or has just been created.  The active subprogram
of a recorder changes only when the recorder is told of another.
-/

namespace DebugMetadata

/-! ## One recorder -/

/-- The second recorder is the first one, or a clone of it, at a later time. -/
structure TypedRecorder.LeadsTo (t t' : TypedRecorder) : Prop where
  source : t'.source = t.source
  optimized : t'.optimized = t.optimized
  file : t'.file = t.file
  unit : t'.unit = t.unit
  subprograms : ∀ id ∈ t.subprograms, id ∈ t'.subprograms

theorem TypedRecorder.LeadsTo.refl (t : TypedRecorder) : t.LeadsTo t :=
  ⟨rfl, rfl, rfl, rfl, fun _ h => h⟩

theorem TypedRecorder.leadsTo_addSubprogram (t : TypedRecorder) (name linkageName : String)
    (line : Nat) (g : Graph) : t.LeadsTo (t.addSubprogram name linkageName line g).2.1 := by
  rw [recorder_addSubprogram]
  exact ⟨rfl, rfl, rfl, rfl, fun id hid => Array.mem_push.mpr (.inl hid)⟩

/-- The second recorder is the first one, or a clone of it, at a later time. -/
structure TaggedRecorder.LeadsTo (t t' : TaggedRecorder) : Prop where
  source : t'.source = t.source
  optimized : t'.optimized = t.optimized
  file : t'.file = t.file
  unit : t'.unit = t.unit
  subprograms : t'.subprograms = t.subprograms

theorem TaggedRecorder.LeadsTo.refl (t : TaggedRecorder) : t.LeadsTo t :=
  ⟨rfl, rfl, rfl, rfl, rfl⟩

theorem TaggedRecorder.leadsTo_addSubprogram (t : TaggedRecorder) (name linkageName : String)
    (line : Nat) (m : Module) : t.LeadsTo (t.addSubprogram name linkageName line m).2.1 := by
  rw [recorder_addSubprogram]
  exact ⟨rfl, rfl, rfl, rfl, rfl⟩

namespace Recorder

/-- The second recorder is the first one, or a clone of it, at a later time. -/
inductive LeadsTo : Recorder → Recorder → Prop where
  | off : LeadsTo .off .off
  | typed {t t' : TypedRecorder} (h : t.LeadsTo t') : LeadsTo (.typed t) (.typed t')
  | tagged {t t' : TaggedRecorder} (h : t.LeadsTo t') : LeadsTo (.tagged t) (.tagged t')

theorem LeadsTo.refl (r : Recorder) : r.LeadsTo r := by
  cases r with
  | off => exact .off
  | typed t => exact .typed (.refl t)
  | tagged t => exact .tagged (.refl t)

/-- The schema of a recorder, or none if it is off. -/
def schema? : Recorder → Option Schema
  | .off => none
  | .typed _ => some .modern
  | .tagged _ => some .legacy

/-- The subprogram that new locations belong to. -/
def active? : Recorder → Option NodeId
  | .off => none
  | .typed t => t.active
  | .tagged t => t.active

variable {r r' : Recorder} {m m' : Module} {c c' : Cursor} {function : FunctionId}
  {name linkageName : String} {line : Nat} {id : NodeId} {event : Option Event}

theorem LeadsTo.schema?_eq (h : r.LeadsTo r') : r'.schema? = r.schema? := by
  cases h <;> rfl

theorem schema?_create {schema : Option Schema} {settings : Settings}
    {workingDirectory path : List UInt8}
    (h : create schema settings workingDirectory path m = .ok (r, m', event)) :
    r.schema? = schema := by
  rcases create_cases h with ⟨rfl, rfl, -⟩ | ⟨source, rfl, -, hr, -⟩ | ⟨source, rfl, -, hr, -⟩
  · rfl
  · rw [hr]
    rfl
  · rw [hr]
    rfl

theorem leadsTo_markSubprogram
    (h : r.markSubprogram m function name line = .ok (r', m', event)) : r.LeadsTo r' := by
  rcases markSubprogram_cases h with
    ⟨rfl, rfl, -⟩ | ⟨t, f, rfl, -, rfl, -⟩ | ⟨t, f, rfl, -, rfl, -⟩
  · exact .off
  · exact .typed (t.leadsTo_addSubprogram _ _ _ _)
  · exact .tagged (t.leadsTo_addSubprogram _ _ _ _)

theorem leadsTo_addSubprogram?
    (h : r.addSubprogram? name linkageName line m = some (id, r', m')) : r.LeadsTo r' := by
  rcases addSubprogram?_cases h with ⟨t, rfl, -, rfl, -⟩ | ⟨t, rfl, -, rfl, -⟩
  · exact .typed (t.leadsTo_addSubprogram _ _ _ _)
  · exact .tagged (t.leadsTo_addSubprogram _ _ _ _)

theorem leadsTo_markLocation (h : r.markLocation m c line = .ok (r', c', m', event)) :
    r.LeadsTo r' ∧ r'.active? = r.active? := by
  rcases markLocation_cases h with ⟨rfl, rfl, -⟩ | ⟨t, scope, rfl, -, rfl, -⟩ |
    ⟨t, rfl, -, rfl, -⟩ | ⟨t, scope, rfl, -, -, -, rfl, -⟩
  · exact ⟨.off, rfl⟩
  · exact ⟨.refl _, rfl⟩
  · exact ⟨.refl _, rfl⟩
  · exact ⟨.tagged ⟨rfl, rfl, rfl, rfl, rfl⟩, rfl⟩

end Recorder

/-! ## The recorders of a session -/

namespace Session

variable {s s' : Session} {n : Nat} {r r' : Recorder} {schema : Schema} {command : Command}
  {answer : Answer}

/-- The recorder of a number is this one. -/
def HasRecorder (s : Session) (n : Nat) (r : Recorder) : Prop :=
  ∃ slot, s.recorders[n]? = some slot ∧ slot.recorder = r

theorem HasRecorder.unique (h : s.HasRecorder n r) (h' : s.HasRecorder n r') : r = r' := by
  obtain ⟨slot, hslot, rfl⟩ := h
  obtain ⟨slot', hslot', rfl⟩ := h'
  cases hslot.symm.trans hslot'
  rfl

theorem HasRecorder.lt (h : s.HasRecorder n r) : n < s.recorders.size := by
  obtain ⟨slot, hslot, -⟩ := h
  exact (Array.getElem?_eq_some_iff.mp hslot).1

def schema? (s : Session) (n : Nat) : Option Schema :=
  s.recorders[n]?.bind (·.recorder.schema?)

theorem HasRecorder.schema?_eq (h : s.HasRecorder n r) : s.schema? n = r.schema? := by
  obtain ⟨slot, hslot, rfl⟩ := h
  rw [schema?, hslot]
  rfl

theorem exists_hasRecorder (h : s.schema? n = some schema) :
    ∃ r, s.HasRecorder n r ∧ r.schema? = some schema := by
  obtain ⟨slot, hslot, hschema⟩ := Option.bind_eq_some_iff.mp h
  exact ⟨_, ⟨slot, hslot, rfl⟩, hschema⟩

theorem exists_tagged_of_schema? (h : s.schema? n = some .legacy) :
    ∃ t, s.HasRecorder n (.tagged t) := by
  obtain ⟨r, hr, hschema⟩ := exists_hasRecorder h
  cases r with
  | tagged t => exact ⟨t, hr⟩
  | off => cases hschema
  | typed t => cases hschema

theorem Rooted.hasRecorder (h : s.Rooted) (hr : s.HasRecorder n r) : r.Rooted s.module.graph := by
  obtain ⟨slot, hslot, rfl⟩ := hr
  exact h.recorders n slot hslot

/-- The command tells the recorder of a number of a subprogram. -/
def TellsSubprogram (command : Command) (n : Nat) : Prop :=
  (∃ function name line, command = .recorder n (.markSubprogram function name line)) ∨
  ∃ name linkageName line, command = .recorder n (.addSubprogram name linkageName line)

/-- A recorder was there under its number, is a clone of one that was there, or has just
been created. -/
theorem Performs.leadsTo_cases (h : s.Performs command answer s') (hr' : s'.HasRecorder n r') :
    (∃ r, s.HasRecorder n r ∧ r.LeadsTo r' ∧
      (r'.active? = r.active? ∨ TellsSubprogram command n)) ∨
    (n = s.recorders.size ∧ ∃ k, command = .recorder k .clone ∧ s.HasRecorder k r') ∨
    (n = s.recorders.size ∧ ∃ choice settings path event,
      command = .createRecorder choice settings path ∧
      Recorder.create (choice.schema settings) settings s.workingDirectory path s.module =
        .ok (r', s'.module, event)) := by
  obtain ⟨slot', hslot', rfl⟩ := hr'
  cases h.recorderOrigin hslot' with
  | kept hslot => exact .inl ⟨_, ⟨_, hslot, rfl⟩, .refl _, .inl rfl⟩
  | created choice settings path hn hcreate =>
      exact .inr (.inr ⟨hn, choice, settings, path, _, rfl, hcreate⟩)
  | cloned hn hslot => exact .inr (.inl ⟨hn, _, rfl, _, hslot, rfl⟩)
  | registered function name line hslot hmark =>
      exact .inl ⟨_, ⟨_, hslot, rfl⟩, Recorder.leadsTo_markSubprogram hmark,
        .inr (.inl ⟨function, name, line, rfl⟩)⟩
  | marked k line hslot hc hmark =>
      obtain ⟨hleads, hactive⟩ := Recorder.leadsTo_markLocation hmark
      exact .inl ⟨_, ⟨_, hslot, rfl⟩, hleads, .inl hactive⟩
  | added name linkageName line hslot hadd =>
      exact .inl ⟨_, ⟨_, hslot, rfl⟩, Recorder.leadsTo_addSubprogram? hadd,
        .inr (.inr ⟨name, linkageName, line, rfl⟩)⟩

/-- A recorder goes on under its number. -/
theorem Performs.exists_leadsTo (h : s.Performs command answer s') (hr : s.HasRecorder n r) :
    ∃ r', s'.HasRecorder n r' ∧ r.LeadsTo r' ∧
      (r'.active? = r.active? ∨ TellsSubprogram command n) := by
  have hslot' := Array.getElem?_eq_getElem (Nat.lt_of_lt_of_le hr.lt h.recorders_le)
  refine ⟨_, ⟨_, hslot', rfl⟩, ?_⟩
  rcases h.leadsTo_cases ⟨_, hslot', rfl⟩ with ⟨r₀, hr₀, hleads⟩ | ⟨hn, -⟩ | ⟨hn, -⟩
  · cases hr.unique hr₀
    exact hleads
  · exact absurd hn (Nat.ne_of_lt hr.lt)
  · exact absurd hn (Nat.ne_of_lt hr.lt)

/-- A recorder of a number keeps its schema. -/
theorem Performs.schema?_eq (h : s.Performs command answer s') (hr : s.HasRecorder n r) :
    s'.schema? n = s.schema? n := by
  obtain ⟨r', hr', hleads, -⟩ := h.exists_leadsTo hr
  rw [hr'.schema?_eq, hr.schema?_eq, hleads.schema?_eq]

end Session

end DebugMetadata

import DebugMetadata.Proofs.Recorder.Calls

/-!
# Calls as cases

What a recorder and the module are after each call that succeeds, by the form of
the recorder.  Whatever the form, the metadata graph only grows.
-/

namespace DebugMetadata

theorem bind_eq_ok {ε α β : Type} {x : Except ε α} {f : α → Except ε β} {b : β}
    (h : x >>= f = .ok b) : ∃ a, x = .ok a ∧ f a = .ok b := by
  cases x with
  | error e => cases h
  | ok a => exact ⟨a, rfl, h⟩

namespace Recorder

variable {r r' : Recorder} {m m' : Module} {c c' : Cursor} {function : FunctionId}
  {name linkageName : String} {line : Nat} {id : NodeId} {event : Option Event}
  {schema : Option Schema} {settings : Settings} {workingDirectory path : List UInt8}

/-! ## Creation -/

theorem create_cases (h : create schema settings workingDirectory path m = .ok (r, m', event)) :
    (schema = none ∧ r = .off ∧ m' = m ∧ event = none) ∨
    (∃ source, schema = some .modern ∧ SourceFile.ofPath workingDirectory path = .ok source ∧
      r = .typed (TypedRecorder.create settings source m.graph).1 ∧
      m' = { m with graph := (TypedRecorder.create settings source m.graph).2 } ∧
      event = some (.created .modern source)) ∨
    (∃ source, schema = some .legacy ∧ SourceFile.ofPath workingDirectory path = .ok source ∧
      r = .tagged (TaggedRecorder.create settings source m.graph).1 ∧
      m' = { m with graph := (TaggedRecorder.create settings source m.graph).2 } ∧
      event = some (.created .legacy source)) := by
  cases schema with
  | none =>
      cases h
      exact .inl ⟨rfl, rfl, rfl, rfl⟩
  | some schema =>
      obtain ⟨source, hsource, h⟩ := bind_eq_ok h
      cases schema with
      | modern =>
          refine .inr (.inl ⟨source, rfl, hsource, ?_⟩)
          simp only at h
          generalize TypedRecorder.create settings source m.graph = created at h ⊢
          cases h
          exact ⟨rfl, rfl, rfl⟩
      | legacy =>
          refine .inr (.inr ⟨source, rfl, hsource, ?_⟩)
          simp only at h
          generalize TaggedRecorder.create settings source m.graph = created at h ⊢
          cases h
          exact ⟨rfl, rfl, rfl⟩

/-- A recorder of a schema can be created for every path that names a file. -/
theorem create_ok {source : SourceFile} (schema : Schema) (settings : Settings)
    (hsource : SourceFile.ofPath workingDirectory path = .ok source) (m : Module) :
    ∃ r m', create (some schema) settings workingDirectory path m =
      .ok (r, m', some (.created schema source)) := by
  simp only [create, hsource, bind, Except.bind]
  cases schema <;> exact ⟨_, _, rfl⟩

theorem grows_create
    (h : create schema settings workingDirectory path m = .ok (r, m', event)) :
    m.graph.Grows m'.graph := by
  rcases create_cases h with ⟨-, -, rfl, -⟩ | ⟨source, -, -, -, rfl, -⟩ | ⟨source, -, -, -, rfl, -⟩
  · exact .refl _
  · dsimp only
    exact TypedRecorder.grows_create settings source m.graph
  · dsimp only
    exact TaggedRecorder.grows_create settings source m.graph

/-- The creation of a recorder changes the graph alone. -/
theorem module_create
    (h : create schema settings workingDirectory path m = .ok (r, m', event)) :
    m' = { m with graph := m'.graph } := by
  rcases create_cases h with ⟨-, -, hm', -⟩ | ⟨source, -, -, -, hm', -⟩ |
    ⟨source, -, -, -, hm', -⟩
  · rw [hm']
  · rw [hm']
  · rw [hm']

/-! ## Subprograms -/

theorem markSubprogram_cases (h : r.markSubprogram m function name line = .ok (r', m', event)) :
    (r = .off ∧ r' = .off ∧ m' = m ∧ event = none) ∨
    (∃ t f, r = .typed t ∧ m.function? function = some f ∧
      r' = .typed (t.addSubprogram name f.name line m.graph).2.1 ∧
      m' = { m with graph := (t.addSubprogram name f.name line m.graph).2.2 }.attachToFunction
        function TypedRecorder.subprogramKey (t.addSubprogram name f.name line m.graph).1 ∧
      event = some (.markedSubprogram name f.name line)) ∨
    (∃ t f, r = .tagged t ∧ m.function? function = some f ∧
      r' = .tagged (t.addSubprogram name f.name line m).2.1 ∧
      m' = (t.addSubprogram name f.name line m).2.2 ∧
      event = some (.markedSubprogram name f.name line)) := by
  cases r with
  | off =>
      cases h
      exact .inl ⟨rfl, rfl, rfl, rfl⟩
  | typed t =>
      obtain ⟨⟨t', m₁, event'⟩, hmark, h⟩ := bind_eq_ok h
      cases h
      cases hf : m.function? function with
      | none =>
          simp only [TypedRecorder.markSubprogram, hf] at hmark
          cases hmark
      | some f =>
          rw [TypedRecorder.markSubprogram_eq hf] at hmark
          refine .inr (.inl ⟨t, f, rfl, rfl, ?_⟩)
          generalize t.addSubprogram name f.name line m.graph = added at hmark ⊢
          cases hmark
          exact ⟨rfl, rfl, rfl⟩
  | tagged t =>
      obtain ⟨⟨t', m₁, event'⟩, hmark, h⟩ := bind_eq_ok h
      cases h
      cases hf : m.function? function with
      | none =>
          simp only [TaggedRecorder.markSubprogram, hf] at hmark
          cases hmark
      | some f =>
          rw [TaggedRecorder.markSubprogram_eq hf] at hmark
          refine .inr (.inr ⟨t, f, rfl, rfl, ?_⟩)
          generalize t.addSubprogram name f.name line m = added at hmark ⊢
          cases hmark
          exact ⟨rfl, rfl, rfl⟩

theorem grows_markSubprogram
    (h : r.markSubprogram m function name line = .ok (r', m', event)) :
    m.graph.Grows m'.graph := by
  rcases markSubprogram_cases h with
    ⟨-, -, rfl, -⟩ | ⟨t, f, -, -, -, hm', -⟩ | ⟨t, f, -, -, -, hm', -⟩
  · exact .refl _
  · rw [hm']
    exact t.grows_addSubprogram name f.name line m.graph
  · rw [hm']
    exact t.grows_addSubprogram name f.name line m

theorem sameFrame_markSubprogram
    (h : r.markSubprogram m function name line = .ok (r', m', event)) : m.SameFrame m' := by
  rcases markSubprogram_cases h with
    ⟨-, -, rfl, -⟩ | ⟨t, f, -, -, -, hm', -⟩ | ⟨t, f, -, -, -, hm', -⟩
  · exact .refl _
  · rw [hm']
    exact (m.sameFrame_graph _).trans (Module.sameFrame_attachToFunction _ _ _ _)
  · rw [hm', TaggedRecorder.module_addSubprogram]
    exact m.sameFrame_graph _

/-- The mark of a subprogram emits no instruction. -/
theorem instructions_markSubprogram
    (h : r.markSubprogram m function name line = .ok (r', m', event)) :
    m'.instructions = m.instructions := by
  rcases markSubprogram_cases h with
    ⟨-, -, rfl, -⟩ | ⟨t, f, -, -, -, hm', -⟩ | ⟨t, f, -, -, -, hm', -⟩
  · rfl
  · rw [hm']
    rfl
  · rw [hm', TaggedRecorder.module_addSubprogram]

theorem addSubprogram?_typed (t : TypedRecorder) (name linkageName : String) (line : Nat)
    (m : Module) :
    (Recorder.typed t).addSubprogram? name linkageName line m =
      some ((t.addSubprogram name linkageName line m.graph).1,
        .typed (t.addSubprogram name linkageName line m.graph).2.1,
        { m with graph := (t.addSubprogram name linkageName line m.graph).2.2 }) := by
  simp only [addSubprogram?]

theorem addSubprogram?_tagged (t : TaggedRecorder) (name linkageName : String) (line : Nat)
    (m : Module) :
    (Recorder.tagged t).addSubprogram? name linkageName line m =
      some ((t.addSubprogram name linkageName line m).1,
        .tagged (t.addSubprogram name linkageName line m).2.1,
        (t.addSubprogram name linkageName line m).2.2) := by
  simp only [addSubprogram?]

theorem addSubprogram?_cases
    (h : r.addSubprogram? name linkageName line m = some (id, r', m')) :
    (∃ t, r = .typed t ∧ id = (t.addSubprogram name linkageName line m.graph).1 ∧
      r' = .typed (t.addSubprogram name linkageName line m.graph).2.1 ∧
      m' = { m with graph := (t.addSubprogram name linkageName line m.graph).2.2 }) ∨
    (∃ t, r = .tagged t ∧ id = (t.addSubprogram name linkageName line m).1 ∧
      r' = .tagged (t.addSubprogram name linkageName line m).2.1 ∧
      m' = (t.addSubprogram name linkageName line m).2.2) := by
  cases r with
  | off => cases h
  | typed t =>
      refine .inl ⟨t, rfl, ?_⟩
      simp only [addSubprogram?] at h
      generalize t.addSubprogram name linkageName line m.graph = added at h ⊢
      cases h
      exact ⟨rfl, rfl, rfl⟩
  | tagged t =>
      refine .inr ⟨t, rfl, ?_⟩
      simp only [addSubprogram?] at h
      generalize t.addSubprogram name linkageName line m = added at h ⊢
      cases h
      exact ⟨rfl, rfl, rfl⟩

theorem grows_addSubprogram?
    (h : r.addSubprogram? name linkageName line m = some (id, r', m')) :
    m.graph.Grows m'.graph := by
  rcases addSubprogram?_cases h with ⟨t, -, -, -, hm'⟩ | ⟨t, -, -, -, hm'⟩
  · rw [hm']
    exact t.grows_addSubprogram name linkageName line m.graph
  · rw [hm']
    exact t.grows_addSubprogram name linkageName line m

/-- A subprogram that is added without a function changes the graph alone. -/
theorem module_addSubprogram?
    (h : r.addSubprogram? name linkageName line m = some (id, r', m')) :
    m' = { m with graph := m'.graph } := by
  rcases addSubprogram?_cases h with ⟨t, -, -, -, hm'⟩ | ⟨t, -, -, -, hm'⟩
  · rw [hm']
  · rw [hm']
    exact t.module_addSubprogram name linkageName line m

/-! ## Locations -/

theorem markLocation_cases (h : r.markLocation m c line = .ok (r', c', m', event)) :
    (r = .off ∧ r' = .off ∧ c' = c ∧ m' = m ∧ event = none) ∨
    (∃ t scope, r = .typed t ∧ t.active = some scope ∧ r' = .typed t ∧
      c' = c.locate (some
        (m.graph.addDebug (TypedRecorder.locationNode line scope) false).1) ∧
      m' = { m with
        graph := (m.graph.addDebug (TypedRecorder.locationNode line scope) false).2 } ∧
      event = some (.markedLocation line)) ∨
    (∃ t, r = .tagged t ∧ t.lastLine = some line ∧ r' = .tagged t ∧ c' = c ∧ m' = m ∧
      event = some (.skippedLine line)) ∨
    (∃ t scope, r = .tagged t ∧ t.lastLine ≠ some line ∧ t.active = some scope ∧
      c.block.index < m.blocks.size ∧ r' = .tagged { t with lastLine := some line } ∧ c' = c ∧
      m' = { m with graph := (m.graph.addTuple
        (TaggedRecorder.locationOperands line scope)).2 }.pushInstruction
          (TaggedRecorder.markerAt c line
            (m.graph.addTuple (TaggedRecorder.locationOperands line scope)).1) ∧
      event = some (.markedLocation line)) := by
  cases r with
  | off =>
      cases h
      exact .inl ⟨rfl, rfl, rfl, rfl, rfl⟩
  | typed t =>
      obtain ⟨⟨c₁, m₁, event'⟩, hmark, h⟩ := bind_eq_ok h
      cases h
      cases hactive : t.active with
      | none =>
          simp only [TypedRecorder.markLocation, TypedRecorder.addLocation, hactive] at hmark
          cases hmark
      | some scope =>
          rw [TypedRecorder.markLocation_eq hactive] at hmark
          cases hmark
          exact .inr (.inl ⟨t, scope, rfl, hactive, rfl, rfl, rfl, rfl⟩)
  | tagged t =>
      obtain ⟨⟨t', m₁, event'⟩, hmark, h⟩ := bind_eq_ok h
      cases h
      by_cases hline : t.lastLine = some line
      · rw [TaggedRecorder.markLocation_of_repeated hline] at hmark
        cases hmark
        exact .inr (.inr (.inl ⟨t, rfl, hline, rfl, rfl, rfl, rfl⟩))
      · cases hactive : t.active with
        | none =>
            simp only [TaggedRecorder.markLocation, if_neg hline, TaggedRecorder.addLocation,
              hactive] at hmark
            cases hmark
        | some scope =>
            by_cases hblock : c.block.index < m.blocks.size
            · rw [TaggedRecorder.markLocation_of_new hline hactive hblock] at hmark
              cases hmark
              exact .inr (.inr (.inr ⟨t, scope, rfl, hline, hactive, hblock, rfl, rfl, rfl, rfl⟩))
            · simp only [TaggedRecorder.markLocation, if_neg hline, TaggedRecorder.addLocation,
                hactive, bind, Except.bind, Module.emit?, Module.appendInstruction?,
                if_neg hblock] at hmark
              cases hmark

theorem grows_markLocation (h : r.markLocation m c line = .ok (r', c', m', event)) :
    m.graph.Grows m'.graph := by
  rcases markLocation_cases h with ⟨-, -, -, rfl, -⟩ | ⟨t, scope, -, -, -, -, rfl, -⟩ |
    ⟨t, -, -, -, -, rfl, -⟩ | ⟨t, scope, -, -, -, -, -, -, rfl, -⟩
  · exact .refl _
  · exact m.graph.grows_addDebug _ _
  · exact .refl _
  · exact m.graph.grows_addTuple _

theorem sameFrame_markLocation (h : r.markLocation m c line = .ok (r', c', m', event)) :
    m.SameFrame m' := by
  rcases markLocation_cases h with ⟨-, -, -, rfl, -⟩ | ⟨t, scope, -, -, -, -, rfl, -⟩ |
    ⟨t, -, -, -, -, rfl, -⟩ | ⟨t, scope, -, -, -, -, -, -, rfl, -⟩
  · exact .refl _
  · exact m.sameFrame_graph _
  · exact .refl _
  · exact (m.sameFrame_graph _).trans (Module.sameFrame_pushInstruction _ _)

/-- The mark of a line leaves the functions alone. -/
theorem functions_markLocation (h : r.markLocation m c line = .ok (r', c', m', event)) :
    m'.functions = m.functions := by
  rcases markLocation_cases h with ⟨-, -, -, rfl, -⟩ | ⟨t, scope, -, -, -, -, rfl, -⟩ |
    ⟨t, -, -, -, -, rfl, -⟩ | ⟨t, scope, -, -, -, -, -, -, rfl, -⟩
  · rfl
  · rfl
  · rfl
  · rfl

theorem addLocation?_cases (h : r.addLocation? line m = some (.ok (id, m'))) :
    (∃ t scope, r = .typed t ∧ t.active = some scope ∧
      id = (m.graph.addDebug (TypedRecorder.locationNode line scope) false).1 ∧
      m' = { m with
        graph := (m.graph.addDebug (TypedRecorder.locationNode line scope) false).2 }) ∨
    (∃ t scope, r = .tagged t ∧ t.active = some scope ∧
      id = (m.graph.addTuple (TaggedRecorder.locationOperands line scope)).1 ∧
      m' = { m with
        graph := (m.graph.addTuple (TaggedRecorder.locationOperands line scope)).2 }) := by
  cases r with
  | off => cases h
  | typed t =>
      cases hactive : t.active with
      | none =>
          simp only [addLocation?, TypedRecorder.addLocation, hactive] at h
          cases h
      | some scope =>
          simp only [addLocation?, TypedRecorder.addLocation, hactive] at h
          cases h
          exact .inl ⟨t, scope, rfl, hactive, rfl, rfl⟩
  | tagged t =>
      cases hactive : t.active with
      | none =>
          simp only [addLocation?, TaggedRecorder.addLocation, hactive] at h
          cases h
      | some scope =>
          simp only [addLocation?, TaggedRecorder.addLocation, hactive] at h
          cases h
          exact .inr ⟨t, scope, rfl, hactive, rfl, rfl⟩

/-- A location that is added without an instruction changes the graph alone. -/
theorem module_addLocation? (h : r.addLocation? line m = some (.ok (id, m'))) :
    m' = { m with graph := m'.graph } := by
  rcases addLocation?_cases h with ⟨t, scope, -, -, -, hm'⟩ | ⟨t, scope, -, -, -, hm'⟩
  · rw [hm']
  · rw [hm']

theorem lists_addLocation? (h : r.addLocation? line m = some (.ok (id, m'))) :
    m'.graph.lists = m.graph.lists := by
  rcases addLocation?_cases h with ⟨t, scope, -, -, -, hm'⟩ | ⟨t, scope, -, -, -, hm'⟩
  · rw [hm']
    exact Graph.lists_addDebug _ _ _
  · rw [hm']
    exact Graph.lists_addTuple _ _

theorem grows_addLocation? (h : r.addLocation? line m = some (.ok (id, m'))) :
    m.graph.Grows m'.graph := by
  rcases addLocation?_cases h with ⟨t, scope, -, -, -, hm'⟩ | ⟨t, scope, -, -, -, hm'⟩
  · rw [hm']
    exact m.graph.grows_addDebug _ _
  · rw [hm']
    exact m.graph.grows_addTuple _

/-! ## Finalization -/

theorem module_finalize (r : Recorder) (m : Module) :
    (r.finalize m).1 = { m with graph := (r.finalize m).1.graph } := by
  cases r with
  | off => rfl
  | typed t => rw [fst_finalize_typed, TypedRecorder.fst_finalize]
  | tagged t => rw [fst_finalize_tagged, TaggedRecorder.fst_finalize]

/-- Whatever is committed, no growable list changes. -/
theorem lists_finalize (r : Recorder) (m : Module) :
    (r.finalize m).1.graph.lists = m.graph.lists := by
  cases r with
  | off => rfl
  | typed t =>
      rw [fst_finalize_typed, TypedRecorder.fst_finalize]
      exact t.lists_finalGraph m.graph
  | tagged t =>
      rw [fst_finalize_tagged, TaggedRecorder.fst_finalize]
      exact t.lists_finalGraph m.graph

theorem grows_finalize (r : Recorder) (m : Module) : m.graph.Grows (r.finalize m).1.graph := by
  cases r with
  | off => exact .refl _
  | typed t =>
      rw [fst_finalize_typed, TypedRecorder.fst_finalize]
      dsimp only
      exact t.grows_finalGraph m.graph
  | tagged t =>
      rw [fst_finalize_tagged, TaggedRecorder.fst_finalize]
      dsimp only
      exact t.grows_finalGraph m.graph

end Recorder

end DebugMetadata

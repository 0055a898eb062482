import DebugMetadata.Proofs.Recorder.Calls
import DebugMetadata.Proofs.Script.View

/-!
# Steps as equations

What the view is after each step, when what the step refers to exists.
-/

namespace DebugMetadata.Script.View

variable {v : View} {n : Nat} {c : Cursor} {function : FunctionId} {f : Function}
  {name : String} {line : Nat} {scope : NodeId}

theorem setCursor_self (hn : v.cursors[n]? = some c) : v.setCursor n c = v := by
  have hmodify : (v.cursors.modify n fun _ => c) = v.cursors :=
    Module.modify_eq_self fun _ hx => Option.some.inj (hn.symm.trans hx)
  rw [setCursor, hmodify]

theorem size_setCursor (v : View) (n : Nat) (c : Cursor) :
    (v.setCursor n c).cursors.size = v.cursors.size :=
  Array.size_modify

theorem getElem?_setCursor_self (hn : v.cursors[n]? = some c) (c' : Cursor) :
    (v.setCursor n c').cursors[n]? = some c' := by
  rw [setCursor, Array.getElem?_modify, if_pos rfl, hn]
  rfl

theorem getElem?_setCursor_of_ne {n' : Nat} (hne : n ≠ n') :
    (v.setCursor n c).cursors[n']? = v.cursors[n']? := by
  rw [setCursor, Array.getElem?_modify, if_neg hne]

/-! ## Code -/

theorem step_addFunction_of_taken (signature : Signature)
    (h : v.module.functionIndex.contains name = true) :
    v.step (.addFunction name signature) = some v := by
  simp only [step, Module.addFunction, if_pos h]

theorem step_addFunction_of_fresh (signature : Signature)
    (h : v.module.functionIndex.contains name = false) :
    v.step (.addFunction name signature) =
      some { v with module := v.module.pushFunction name signature } := by
  simp only [step, Module.addFunction_of_not_contains h]

theorem step_addFunction_cases {signature : Signature} {v' : View}
    (h : v.step (.addFunction name signature) = some v') :
    v' = v ∨ v' = { v with module := v.module.pushFunction name signature } := by
  cases hcontains : v.module.functionIndex.contains name with
  | true =>
      rw [step_addFunction_of_taken signature hcontains] at h
      exact .inl (Option.some.inj h).symm
  | false =>
      rw [step_addFunction_of_fresh signature hcontains] at h
      exact .inr (Option.some.inj h).symm

theorem step_appendBlock (label : String) (h : function.index < v.module.functions.size) :
    v.step (.appendBlock function label) =
      some { v with module := v.module.pushBlock function label } := by
  simp only [step, Module.appendBlock?_of_lt h]

theorem step_moveTo (block : BlockId) (hn : v.cursors[n]? = some c) :
    v.step (.moveTo n block) = some (v.setCursor n (c.moveTo block)) := by
  simp only [step, hn]

/-- The view after an instruction at a cursor. -/
def emit (v : View) (c : Cursor) (operation : Operation) : View :=
  { v with
    module := v.module.pushInstruction
      { operation := operation.rename v.handle, block := c.block, location := c.location }
    emitted := v.emitted.push ⟨v.module.instructions.size⟩ }

theorem step_emit (operation : Operation) (hn : v.cursors[n]? = some c)
    (hblock : c.block.index < v.module.blocks.size) :
    v.step (.emit n operation) = some (v.emit c operation) := by
  simp only [step, hn, Module.emit?_of_lt _ hblock]
  rfl

/-- A step that only builds code leaves the metadata and the recorder alone. -/
theorem graph_and_recorder_of_isCode {s : Step} {v' : View} (hs : s.isCode = true)
    (h : v.step s = some v') :
    v'.module.graph = v.module.graph ∧ v'.recorder = v.recorder := by
  cases s with
  | addFunction name signature =>
      rcases step_addFunction_cases h with rfl | rfl
      · exact ⟨rfl, rfl⟩
      · exact ⟨rfl, rfl⟩
  | appendBlock function label =>
      by_cases hlt : function.index < v.module.functions.size
      · rw [step_appendBlock label hlt] at h
        cases h
        exact ⟨rfl, rfl⟩
      · simp only [step, Module.appendBlock?, if_neg hlt] at h
        cases h
  | openCursor block =>
      cases h
      exact ⟨rfl, rfl⟩
  | moveTo n block =>
      cases hn : v.cursors[n]? with
      | none =>
          simp only [step, hn] at h
          cases h
      | some c =>
          rw [step_moveTo block hn] at h
          cases h
          exact ⟨rfl, rfl⟩
  | emit n operation =>
      cases hn : v.cursors[n]? with
      | none =>
          simp only [step, hn] at h
          cases h
      | some c =>
          by_cases hblock : c.block.index < v.module.blocks.size
          · rw [step_emit operation hn hblock] at h
            cases h
            exact ⟨rfl, rfl⟩
          · simp only [step, hn, Module.emit?, Module.appendInstruction?, if_neg hblock] at h
            cases h
  | markSubprogram function name line => cases hs
  | markLocation n line => cases hs
  | finalize => cases hs

/-! ## A recorder that is off -/

theorem step_markSubprogram_off (hr : v.recorder = .off) :
    v.step (.markSubprogram function name line) = some v := by
  obtain ⟨m, cursors, r, emitted⟩ := v
  cases hr
  rfl

theorem step_markLocation_off (hr : v.recorder = .off) (hn : v.cursors[n]? = some c) :
    v.step (.markLocation n line) = some v := by
  obtain ⟨m, cursors, r, emitted⟩ := v
  cases hr
  simp only [step, hn, Recorder.markLocation, setCursor_self hn]

theorem step_finalize_off (hr : v.recorder = .off) : v.step .finalize = some v := by
  obtain ⟨m, cursors, r, emitted⟩ := v
  cases hr
  rfl

/-! ## A typed recorder -/

theorem step_markSubprogram_typed {r : TypedRecorder} (hr : v.recorder = .typed r)
    (hf : v.module.function? function = some f) :
    v.step (.markSubprogram function name line) =
      some { v with
        recorder := .typed (r.addSubprogram name f.name line v.module.graph).2.1
        module := { v.module with
          graph := (r.addSubprogram name f.name line v.module.graph).2.2 }.attachToFunction
            function TypedRecorder.subprogramKey
            (r.addSubprogram name f.name line v.module.graph).1 } := by
  simp only [step, hr, Recorder.markSubprogram, TypedRecorder.markSubprogram_eq hf, bind,
    Except.bind, pure, Except.pure]

theorem step_markLocation_typed {r : TypedRecorder} (hr : v.recorder = .typed r)
    (hactive : r.active = some scope) (hn : v.cursors[n]? = some c) :
    v.step (.markLocation n line) =
      some (View.setCursor
        { v with module := { v.module with
            graph := (v.module.graph.addDebug (TypedRecorder.locationNode line scope) false).2 } }
        n (c.locate (some
          (v.module.graph.addDebug (TypedRecorder.locationNode line scope) false).1))) := by
  obtain ⟨m, cursors, r', emitted⟩ := v
  cases hr
  simp only [step, hn, Recorder.markLocation, TypedRecorder.markLocation_eq hactive, bind,
    Except.bind, pure, Except.pure]

theorem step_finalize_typed {r : TypedRecorder} (hr : v.recorder = .typed r) :
    v.step .finalize =
      some { v with module := { v.module with graph := r.finalGraph v.module.graph } } := by
  simp only [step, hr, Recorder.fst_finalize_typed, TypedRecorder.fst_finalize]

/-! ## A tagged recorder -/

theorem step_markSubprogram_tagged {r : TaggedRecorder} (hr : v.recorder = .tagged r)
    (hf : v.module.function? function = some f) :
    v.step (.markSubprogram function name line) =
      some { v with
        recorder := .tagged (r.addSubprogram name f.name line v.module).2.1
        module := (r.addSubprogram name f.name line v.module).2.2 } := by
  simp only [step, hr, Recorder.markSubprogram, TaggedRecorder.markSubprogram_eq hf, bind,
    Except.bind, pure, Except.pure]

theorem step_markLocation_of_repeated {r : TaggedRecorder} (hr : v.recorder = .tagged r)
    (hline : r.lastLine = some line) (hn : v.cursors[n]? = some c) :
    v.step (.markLocation n line) = some v := by
  obtain ⟨m, cursors, r', emitted⟩ := v
  cases hr
  simp only [step, hn, Recorder.markLocation, TaggedRecorder.markLocation_of_repeated hline, bind,
    Except.bind, pure, Except.pure, setCursor_self hn]

theorem step_markLocation_of_new {r : TaggedRecorder} (hr : v.recorder = .tagged r)
    (hline : r.lastLine ≠ some line) (hactive : r.active = some scope)
    (hn : v.cursors[n]? = some c) (hblock : c.block.index < v.module.blocks.size) :
    v.step (.markLocation n line) =
      some { v with
        recorder := .tagged { r with lastLine := some line }
        module := { v.module with
          graph := (v.module.graph.addTuple
            (TaggedRecorder.locationOperands line scope)).2 }.pushInstruction
          (TaggedRecorder.markerAt c line
            (v.module.graph.addTuple (TaggedRecorder.locationOperands line scope)).1) } := by
  simp only [step, hn, hr, Recorder.markLocation,
    TaggedRecorder.markLocation_of_new hline hactive hblock, bind, Except.bind, pure, Except.pure]
  exact congrArg some (setCursor_self hn)

theorem step_finalize_tagged {r : TaggedRecorder} (hr : v.recorder = .tagged r) :
    v.step .finalize =
      some { v with module := { v.module with graph := r.finalGraph v.module.graph } } := by
  simp only [step, hr, Recorder.fst_finalize_tagged, TaggedRecorder.fst_finalize]

end DebugMetadata.Script.View

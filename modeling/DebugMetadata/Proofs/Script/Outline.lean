import DebugMetadata.Proofs.Script.Steps

/-!
# Scripts that may be run

An outline describes the view it goes with, whatever the recorder.  A step that
may be taken is taken, and the outline after it describes the view after it; so a
well-formed script runs to its end with every recorder.
-/

namespace DebugMetadata.Script

/-- The outline is that of the view. -/
structure Outline.Describes (o : Outline) (v : View) : Prop where
  names : v.module.names = o.names
  named : v.module.Named
  owners : v.module.owners = o.owners
  cursors : v.cursors.toList.map (·.block) = o.cursors
  emitted : v.emitted.size = o.emitted
  ready : o.marked = true → v.recorder.IsReady

namespace Outline.Describes

variable {o o' : Outline} {v : View}

theorem getElem?_cursors (h : o.Describes v) (n : Nat) :
    o.cursors[n]? = (v.cursors[n]?).map (·.block) := by
  rw [← h.cursors, List.getElem?_map, Array.getElem?_toList]

/-- A cursor that may emit stands in a block of the module. -/
theorem exists_cursor (h : o.Describes v) {n : Nat} (hplace : (o.place? n).isSome) :
    ∃ c, v.cursors[n]? = some c ∧ c.block.index < v.module.blocks.size := by
  rw [place?, h.getElem?_cursors] at hplace
  cases hn : v.cursors[n]? with
  | none =>
      rw [hn] at hplace
      cases hplace
  | some c =>
      refine ⟨c, rfl, ?_⟩
      rw [hn] at hplace
      change (o.owners[c.block.index]?).isSome at hplace
      obtain ⟨owner, howner⟩ := Option.isSome_iff_exists.mp hplace
      obtain ⟨hlt, -⟩ := List.getElem?_eq_some_iff.mp howner
      rw [← h.owners, Module.length_owners] at hlt
      exact hlt

theorem exists_cursor_of_lt (h : o.Describes v) {n : Nat} (hlt : n < o.cursors.length) :
    ∃ c, v.cursors[n]? = some c := by
  rw [← h.cursors, List.length_map, Array.length_toList] at hlt
  exact ⟨_, Array.getElem?_eq_getElem hlt⟩

theorem owner_of_place (h : o.Describes v) {n : Nat} {c : Cursor} {function : FunctionId}
    (hn : v.cursors[n]? = some c) (hplace : o.place? n = some function) :
    (v.module.block? c.block).map (·.function) = some function := by
  rw [place?, h.getElem?_cursors, hn] at hplace
  rw [← Module.getElem?_owners, h.owners]
  exact hplace

theorem lt_size (h : o.Describes v) {function : FunctionId}
    (hlt : function.index < o.names.length) : function.index < v.module.functions.size := by
  rw [← h.names, Module.length_names] at hlt
  exact hlt

theorem exists_function (h : o.Describes v) {function : FunctionId}
    (hlt : function.index < o.names.length) :
    ∃ f, v.module.function? function = some f ∧ o.names[function.index]? = some f.name := by
  obtain ⟨f, hf⟩ := Module.exists_function? (h.lt_size hlt)
  refine ⟨f, hf, ?_⟩
  rw [← h.names, Module.getElem?_names, hf]
  rfl

private theorem map_block_modify {cursors : Array Cursor} (n : Nat) (c : Cursor) :
    (cursors.modify n fun _ => c).toList.map (·.block) =
      (cursors.toList.map (·.block)).set n c.block := by
  apply List.ext_getElem?
  intro k
  rw [List.getElem?_map, Array.getElem?_toList, Array.getElem?_modify, List.getElem?_set,
    List.length_map, Array.length_toList, List.getElem?_map, Array.getElem?_toList]
  by_cases hk : n = k
  · subst hk
    rw [if_pos rfl, if_pos rfl]
    by_cases hlt : n < cursors.size
    · simp [hlt]
    · simp [hlt]
  · rw [if_neg hk, if_neg hk]

private theorem cursors_setCursor (h : o.Describes v) {n : Nat} {c c' : Cursor}
    (hn : v.cursors[n]? = some c) (hblock : c'.block = c.block) :
    (v.setCursor n c').cursors.toList.map (·.block) = o.cursors := by
  have hc : o.cursors[n]? = some c.block := by
    rw [h.getElem?_cursors, hn]
    rfl
  obtain ⟨hlt, hget⟩ := List.getElem?_eq_some_iff.mp hc
  rw [View.setCursor, map_block_modify, h.cursors, hblock, ← hget, List.set_getElem_self]

/-! ## Steps -/

theorem addFunction (h : o.Describes v) (name : String) (signature : Signature) :
    ∃ v', v.step (.addFunction name signature) = some v' ∧
      (if name ∈ o.names then o else { o with names := o.names ++ [name] }).Describes v' := by
  by_cases hname : name ∈ o.names
  · have htaken : v.module.functionIndex.contains name = true := by
      rw [h.named.contains_iff, h.names]
      exact hname
    refine ⟨v, View.step_addFunction_of_taken signature htaken, ?_⟩
    rw [if_pos hname]
    exact h
  · have hfresh : v.module.functionIndex.contains name = false := by
      rw [Bool.eq_false_iff, ne_eq, h.named.contains_iff, h.names]
      exact hname
    refine ⟨_, View.step_addFunction_of_fresh signature hfresh, ?_⟩
    rw [if_neg hname]
    refine ⟨?_, ?_, h.owners, h.cursors, h.emitted, h.ready⟩
    · rw [Module.names_pushFunction, h.names]
    · apply h.named.pushFunction
      rw [h.names]
      exact hname

theorem appendBlock (h : o.Describes v) {function : FunctionId} (label : String)
    (hlt : function.index < o.names.length) :
    ∃ v', v.step (.appendBlock function label) = some v' ∧
      Describes { o with owners := o.owners ++ [function] } v' := by
  refine ⟨_, View.step_appendBlock label (h.lt_size hlt),
    ?_, h.named.pushBlock function label, ?_, h.cursors, h.emitted, h.ready⟩
  · rw [Module.names_pushBlock, h.names]
  · rw [Module.owners_pushBlock, h.owners]

theorem openCursor (h : o.Describes v) (block : BlockId) :
    ∃ v', v.step (.openCursor block) = some v' ∧
      Describes { o with cursors := o.cursors ++ [block] } v' := by
  refine ⟨_, rfl, h.names, h.named, h.owners, ?_, h.emitted, h.ready⟩
  change (v.cursors.push _).toList.map _ = _
  rw [Array.toList_push, List.map_append, h.cursors]
  rfl

theorem moveTo (h : o.Describes v) {n : Nat} (block : BlockId) (hlt : n < o.cursors.length) :
    ∃ v', v.step (.moveTo n block) = some v' ∧
      Describes { o with cursors := o.cursors.set n block } v' := by
  obtain ⟨c, hn⟩ := h.exists_cursor_of_lt hlt
  refine ⟨_, View.step_moveTo block hn, h.names, h.named, h.owners, ?_, h.emitted, h.ready⟩
  rw [View.setCursor, map_block_modify, h.cursors]
  rfl

theorem emit (h : o.Describes v) {n : Nat} (operation : Operation)
    (hplace : (o.place? n).isSome) :
    ∃ v', v.step (.emit n operation) = some v' ∧
      Describes { o with emitted := o.emitted + 1 } v' := by
  obtain ⟨c, hn, hblock⟩ := h.exists_cursor hplace
  have hframe := v.module.sameFrame_pushInstruction
    { operation := operation.rename v.handle, block := c.block, location := c.location }
  refine ⟨_, View.step_emit operation hn hblock, hframe.names.trans h.names,
    h.named.of_sameFrame hframe, hframe.owners.trans h.owners, h.cursors, ?_, h.ready⟩
  rw [View.emit, Array.size_push, h.emitted]

theorem markSubprogram (h : o.Describes v) {function : FunctionId} (name : String) (line : Nat)
    (hlt : function.index < o.names.length) :
    ∃ v', v.step (.markSubprogram function name line) = some v' ∧
      Describes { o with marked := true } v' := by
  obtain ⟨r, m, event, hmark, hready, hframe⟩ :=
    Recorder.markSubprogram_ok (r := v.recorder) (h.lt_size hlt) name line
  refine ⟨{ v with recorder := r, module := m }, ?_, ?_⟩
  · simp only [View.step, hmark]
  · exact ⟨hframe.names.trans h.names, h.named.of_sameFrame hframe,
      hframe.owners.trans h.owners, h.cursors, h.emitted, fun _ => hready⟩

theorem markLocation (h : o.Describes v) {n : Nat} (line : Nat) (hmarked : o.marked = true)
    (hplace : (o.place? n).isSome) :
    ∃ v', v.step (.markLocation n line) = some v' ∧ o.Describes v' := by
  obtain ⟨c, hn, hblock⟩ := h.exists_cursor hplace
  obtain ⟨r, c', m, event, hmark, hready, hc', hframe⟩ :=
    Recorder.markLocation_ok (h.ready hmarked) hblock line
  refine ⟨View.setCursor { v with recorder := r, module := m } n c', ?_, ?_⟩
  · simp only [View.step, hn, hmark]
  · exact ⟨hframe.names.trans h.names, h.named.of_sameFrame hframe,
      hframe.owners.trans h.owners, h.cursors_setCursor hn hc', h.emitted, fun _ => hready⟩

theorem finalize (h : o.Describes v) :
    ∃ v', v.step .finalize = some v' ∧ o.Describes v' := by
  have hframe := v.recorder.sameFrame_finalize v.module
  exact ⟨_, rfl, hframe.names.trans h.names, h.named.of_sameFrame hframe,
    hframe.owners.trans h.owners, h.cursors, h.emitted, h.ready⟩

/-- The outline of a script with no steps is that of a module with no code. -/
theorem start (name : String) (graph : Graph) (r : Recorder) :
    Describes {} { module := { name, graph }, recorder := r } := by
  refine ⟨rfl, ?_, rfl, rfl, rfl, fun h => by cases h⟩
  intro name' id
  change (∅ : Std.HashMap String FunctionId)[name']? = some id ↔
    ([] : List String)[id.index]? = some name'
  simp

theorem step (h : o.Describes v) {s : Step} (hs : o.after? s = some o') :
    ∃ v', v.step s = some v' ∧ o'.Describes v' := by
  cases s with
  | addFunction name signature =>
      cases hs
      exact h.addFunction name signature
  | appendBlock function label =>
      simp only [after?, Option.ite_none_right_eq_some, Option.some.injEq] at hs
      obtain ⟨hlt, rfl⟩ := hs
      exact h.appendBlock label hlt
  | openCursor block =>
      cases hs
      exact h.openCursor block
  | moveTo n block =>
      simp only [after?, Option.ite_none_right_eq_some, Option.some.injEq] at hs
      obtain ⟨hlt, rfl⟩ := hs
      exact h.moveTo block hlt
  | emit n operation =>
      simp only [after?, Option.ite_none_right_eq_some, Option.some.injEq] at hs
      obtain ⟨⟨hplace, -⟩, rfl⟩ := hs
      exact h.emit operation hplace
  | markSubprogram function name line =>
      simp only [after?, Option.ite_none_right_eq_some, Option.some.injEq] at hs
      obtain ⟨hlt, rfl⟩ := hs
      exact h.markSubprogram name line hlt
  | markLocation n line =>
      simp only [after?, Option.ite_none_right_eq_some, Option.some.injEq] at hs
      obtain ⟨⟨hmarked, hplace⟩, rfl⟩ := hs
      exact h.markLocation line hmarked hplace
  | finalize =>
      cases hs
      exact h.finalize

end Outline.Describes

/-! ## Runs -/

/-- What holds of a view and of the script behind it, and goes on to hold after
every step that may be taken, holds at the end of a well-formed script. -/
theorem View.run_invariant {I : List Step → Outline → View → Prop}
    (hstep : ∀ {script o o' v v' s}, o.Describes v → I script o v → o.after? s = some o' →
      v.step s = some v' → I (script ++ [s]) o' v') :
    ∀ {rest script : List Step} {o o' : Outline} {v : View}, o.Describes v → I script o v →
      rest.foldlM Outline.after? o = some o' →
      ∃ v', v.run rest = some v' ∧ o'.Describes v' ∧ I (script ++ rest) o' v' := by
  intro rest
  induction rest with
  | nil =>
      intro script o o' v ho h hfold
      cases hfold
      rw [List.append_nil]
      exact ⟨v, rfl, ho, h⟩
  | cons s rest ih =>
      intro script o o' v ho h hfold
      rw [List.foldlM_cons] at hfold
      obtain ⟨o₁, hs, hrest⟩ := Option.bind_eq_some_iff.mp hfold
      obtain ⟨v₁, hv₁, ho₁⟩ := ho.step hs
      obtain ⟨v₂, hv₂, ho₂, h₂⟩ := ih ho₁ (hstep ho h hs hv₁) hrest
      refine ⟨v₂, ?_, ho₂, ?_⟩
      · rw [View.run_cons, hv₁]
        exact hv₂
      · rw [List.append_assoc] at h₂
        exact h₂

/-- Two views that every step keeps related are related at the end of a
well-formed script, which both of them run. -/
theorem View.run_simulation {R : View → View → Prop}
    (hstep : ∀ {o o' : Outline} {v₁ v₁' v₂ v₂' s}, o.Describes v₁ → o.Describes v₂ → R v₁ v₂ →
      o.after? s = some o' → v₁.step s = some v₁' → v₂.step s = some v₂' → R v₁' v₂') :
    ∀ {script : List Step} {o o' : Outline} {v₁ v₂ : View}, o.Describes v₁ → o.Describes v₂ →
      R v₁ v₂ → script.foldlM Outline.after? o = some o' →
      ∃ v₁' v₂', v₁.run script = some v₁' ∧ v₂.run script = some v₂' ∧
        o'.Describes v₁' ∧ o'.Describes v₂' ∧ R v₁' v₂' := by
  intro script
  induction script with
  | nil =>
      intro o o' v₁ v₂ h₁ h₂ h hfold
      cases hfold
      exact ⟨v₁, v₂, rfl, rfl, h₁, h₂, h⟩
  | cons s script ih =>
      intro o o' v₁ v₂ h₁ h₂ h hfold
      rw [List.foldlM_cons] at hfold
      obtain ⟨o₁, hs, hrest⟩ := Option.bind_eq_some_iff.mp hfold
      obtain ⟨v₁', hv₁, h₁'⟩ := h₁.step hs
      obtain ⟨v₂', hv₂, h₂'⟩ := h₂.step hs
      rw [View.run_cons, View.run_cons, hv₁, hv₂]
      exact ih h₁' h₂' (hstep h₁ h₂ h hs hv₁ hv₂) hrest

end DebugMetadata.Script

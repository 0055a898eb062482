import DebugMetadata.Proofs.Script.Outline
import DebugMetadata.Proofs.Transparency.Locations

/-!
# A run beside a typed recorder

Without its locations the module of a script that runs beside a typed recorder is
that of the same script without a recorder.
-/

namespace DebugMetadata.Script

/-- The second view is the first one with locations. -/
structure Located (v₀ v : View) : Prop where
  off : v₀.recorder = .off
  typed : ∃ r, v.recorder = .typed r
  code : v.module.withoutLocations.code = v₀.module.code
  cursors : v.cursors.map (·.locate none) = v₀.cursors
  emitted : v.emitted = v₀.emitted
  listed : ∀ id ∈ v.emitted, id.index < v.module.instructions.size
  plain : ∀ id, ∀ i ∈ v.module.instruction? id, i.attachments = ∅

namespace Located

variable {v₀ v v₀' v' : View} {o o' : Outline} {n : Nat} {c : Cursor}

theorem functionIndex (h : Located v₀ v) :
    v.module.functionIndex = v₀.module.functionIndex := by
  have hindex := congrArg Module.functionIndex h.code
  exact hindex

theorem size_functions (h : Located v₀ v) :
    v.module.functions.size = v₀.module.functions.size := by
  have hfunctions := congrArg (fun m : Module => m.functions.size) h.code
  rwa [Module.code, Module.withoutLocations, Array.size_map] at hfunctions

theorem size_instructions (h : Located v₀ v) :
    v.module.instructions.size = v₀.module.instructions.size := by
  have hinstrs := congrArg (fun m : Module => m.instructions.size) h.code
  rwa [Module.code, Module.withoutLocations, Array.size_map] at hinstrs

theorem cursor (h : Located v₀ v) (hn : v.cursors[n]? = some c) :
    v₀.cursors[n]? = some (c.locate none) := by
  rw [← h.cursors, Array.getElem?_map, hn]
  rfl

theorem map_setCursor (h : Located v₀ v) (n : Nat) (c : Cursor) :
    (v.setCursor n c).cursors.map (·.locate none) = (v₀.setCursor n (c.locate none)).cursors := by
  simp only [View.setCursor, ← h.cursors]
  apply Module.map_modify
  intro _
  rfl

/-- What a recorder does to the graph and to itself does not show. -/
theorem graph (h : Located v₀ v) (graph : Graph) {recorder : Recorder}
    (hr : ∃ r, recorder = .typed r) :
    Located v₀ { v with module := { v.module with graph }, recorder } := by
  refine ⟨h.off, hr, ?_, h.cursors, h.emitted, h.listed, h.plain⟩
  rw [Module.withoutLocations_graph]
  exact h.code

theorem start (name : String) (graph : Graph) (r : TypedRecorder) :
    Located (View.off name) { module := { name, graph }, recorder := .typed r } := by
  have hempty : ∀ id : InstrId, (#[] : Array Instruction)[id.index]? = none :=
    fun _ => Array.getElem?_empty
  refine ⟨rfl, ⟨r, rfl⟩, ?_, Array.map_empty, rfl, ?_, ?_⟩
  · rw [Module.withoutLocations, Array.map_empty, Array.map_empty]
    rfl
  · intro id hid
    cases hid with
    | mk hid => cases hid
  · intro id i hi
    rw [Module.instruction?, hempty] at hi
    cases hi

/-! ## Steps -/

theorem addFunction (h : Located v₀ v) {name : String} {signature : Signature}
    (h₀ : v₀.step (.addFunction name signature) = some v₀')
    (h₁ : v.step (.addFunction name signature) = some v') : Located v₀' v' := by
  cases htaken : v.module.functionIndex.contains name with
  | true =>
      have htaken₀ := htaken
      rw [h.functionIndex] at htaken₀
      rw [View.step_addFunction_of_taken signature htaken₀] at h₀
      rw [View.step_addFunction_of_taken signature htaken] at h₁
      cases h₀
      cases h₁
      exact h
  | false =>
      have hfresh₀ := htaken
      rw [h.functionIndex] at hfresh₀
      rw [View.step_addFunction_of_fresh signature hfresh₀] at h₀
      rw [View.step_addFunction_of_fresh signature htaken] at h₁
      cases h₀
      cases h₁
      refine ⟨h.off, h.typed, ?_, h.cursors, h.emitted, h.listed, h.plain⟩
      rw [Module.withoutLocations_pushFunction]
      exact congrArg (fun m : Module => m.pushFunction name signature) h.code

theorem appendBlock (h : Located v₀ v) {function : FunctionId} {label : String}
    (hlt : function.index < v.module.functions.size)
    (h₀ : v₀.step (.appendBlock function label) = some v₀')
    (h₁ : v.step (.appendBlock function label) = some v') : Located v₀' v' := by
  have hlt₀ := hlt
  rw [h.size_functions] at hlt₀
  rw [View.step_appendBlock label hlt₀] at h₀
  rw [View.step_appendBlock label hlt] at h₁
  cases h₀
  cases h₁
  refine ⟨h.off, h.typed, ?_, h.cursors, h.emitted, h.listed, h.plain⟩
  rw [Module.withoutLocations_pushBlock]
  exact congrArg (fun m : Module => m.pushBlock function label) h.code

theorem openCursor (h : Located v₀ v) {block : BlockId}
    (h₀ : v₀.step (.openCursor block) = some v₀') (h₁ : v.step (.openCursor block) = some v') :
    Located v₀' v' := by
  cases h₀
  cases h₁
  refine ⟨h.off, h.typed, h.code, ?_, h.emitted, h.listed, h.plain⟩
  rw [Array.map_push, h.cursors]
  rfl

theorem moveTo (h : Located v₀ v) {block : BlockId} (hn : v.cursors[n]? = some c)
    (h₀ : v₀.step (.moveTo n block) = some v₀') (h₁ : v.step (.moveTo n block) = some v') :
    Located v₀' v' := by
  rw [View.step_moveTo block (h.cursor hn)] at h₀
  rw [View.step_moveTo block hn] at h₁
  cases h₀
  cases h₁
  exact ⟨h.off, h.typed, h.code, h.map_setCursor n (c.moveTo block), h.emitted, h.listed,
    h.plain⟩

theorem emit (h : Located v₀ v) {operation : Operation} (hn : v.cursors[n]? = some c)
    (hblock : c.block.index < v.module.blocks.size)
    (h₀ : v₀.step (.emit n operation) = some v₀')
    (h₁ : v.step (.emit n operation) = some v') : Located v₀' v' := by
  have hblock₀ := hblock
  have hblocks := congrArg Module.blocks h.code
  change v.module.blocks = v₀.module.blocks at hblocks
  rw [hblocks] at hblock₀
  rw [View.step_emit operation (h.cursor hn) hblock₀] at h₀
  rw [View.step_emit operation hn hblock] at h₁
  cases h₀
  cases h₁
  have hhandle : v.handle = v₀.handle := by
    funext position
    rw [View.handle, View.handle, h.emitted]
  refine ⟨h.off, h.typed, ?_, h.cursors, ?_, ?_, ?_⟩
  · simp only [View.emit, Module.withoutLocations_pushInstruction, hhandle]
    exact congrArg (fun m : Module => m.pushInstruction _) h.code
  · simp only [View.emit, h.size_instructions, h.emitted]
  · intro id hid
    change id.index < (v.module.instructions.push _).size
    rw [Array.size_push]
    rcases Array.mem_push.mp hid with hid | rfl
    · exact Nat.lt_succ_of_lt (h.listed id hid)
    · exact Nat.lt_succ_self _
  · intro id i hi
    rcases Module.instruction?_push_cases hi with ⟨-, rfl⟩ | hi
    · rfl
    · exact h.plain id i hi

theorem markSubprogram (h : Located v₀ v) {function : FunctionId} {name : String} {line : Nat}
    (hlt : function.index < v.module.functions.size)
    (h₀ : v₀.step (.markSubprogram function name line) = some v₀')
    (h₁ : v.step (.markSubprogram function name line) = some v') : Located v₀' v' := by
  obtain ⟨r, hr⟩ := h.typed
  have hf : v.module.function? function = some v.module.functions[function.index] :=
    Array.getElem?_eq_getElem hlt
  rw [View.step_markSubprogram_off h.off] at h₀
  rw [View.step_markSubprogram_typed hr hf] at h₁
  cases h₀
  cases h₁
  have hgraph := h.graph
    (r.addSubprogram name v.module.functions[function.index].name line v.module.graph).2.2
    ⟨(r.addSubprogram name v.module.functions[function.index].name line v.module.graph).2.1, rfl⟩
  refine ⟨h.off, hgraph.typed, ?_, hgraph.cursors, hgraph.emitted, hgraph.listed, hgraph.plain⟩
  rw [Module.withoutLocations_attachToFunction]
  exact hgraph.code

theorem markLocation (h : Located v₀ v) {line : Nat} (hready : v.recorder.IsReady)
    (hn : v.cursors[n]? = some c) (h₀ : v₀.step (.markLocation n line) = some v₀')
    (h₁ : v.step (.markLocation n line) = some v') : Located v₀' v' := by
  obtain ⟨r, hr⟩ := h.typed
  rw [hr] at hready
  obtain ⟨scope, hscope⟩ := Option.isSome_iff_exists.mp hready
  rw [View.step_markLocation_off h.off (h.cursor hn)] at h₀
  rw [View.step_markLocation_typed hr hscope hn] at h₁
  cases h₀
  cases h₁
  have hgraph := h.graph
    (v.module.graph.addDebug (TypedRecorder.locationNode line scope) false).2 ⟨r, hr⟩
  refine ⟨h.off, ⟨r, hr⟩, hgraph.code, ?_, h.emitted, hgraph.listed, hgraph.plain⟩
  have hset := h.map_setCursor n
    (c.locate (some (v.module.graph.addDebug (TypedRecorder.locationNode line scope) false).1))
  change _ = (v₀.setCursor n (c.locate none)).cursors at hset
  rw [View.setCursor_self (h.cursor hn)] at hset
  exact hset

theorem finalize (h : Located v₀ v) (h₀ : v₀.step .finalize = some v₀')
    (h₁ : v.step .finalize = some v') : Located v₀' v' := by
  obtain ⟨r, hr⟩ := h.typed
  rw [View.step_finalize_off h.off] at h₀
  rw [View.step_finalize_typed hr] at h₁
  cases h₀
  cases h₁
  exact h.graph _ ⟨r, hr⟩

theorem step (h : Located v₀ v) (ho : o.Describes v) {s : Step} (hs : o.after? s = some o')
    (h₀ : v₀.step s = some v₀') (h₁ : v.step s = some v') : Located v₀' v' := by
  cases s with
  | addFunction name signature => exact h.addFunction h₀ h₁
  | appendBlock function label =>
      simp only [Outline.after?, Option.ite_none_right_eq_some] at hs
      exact h.appendBlock (ho.lt_size hs.1) h₀ h₁
  | openCursor block => exact h.openCursor h₀ h₁
  | moveTo n block =>
      simp only [Outline.after?, Option.ite_none_right_eq_some] at hs
      obtain ⟨c, hn⟩ := ho.exists_cursor_of_lt hs.1
      exact h.moveTo hn h₀ h₁
  | emit n operation =>
      simp only [Outline.after?, Option.ite_none_right_eq_some] at hs
      obtain ⟨c, hn, hblock⟩ := ho.exists_cursor hs.1.1
      exact h.emit hn hblock h₀ h₁
  | markSubprogram function name line =>
      simp only [Outline.after?, Option.ite_none_right_eq_some] at hs
      exact h.markSubprogram (ho.lt_size hs.1) h₀ h₁
  | markLocation n line =>
      simp only [Outline.after?, Option.ite_none_right_eq_some] at hs
      obtain ⟨c, hn, -⟩ := ho.exists_cursor hs.1.2
      exact h.markLocation (ho.ready hs.1.1) hn h₀ h₁
  | finalize => exact h.finalize h₀ h₁

end Located

/-- Beside a typed recorder a script does what it does without one, but for the
locations. -/
theorem exists_located {script : List Step} (hscript : WellFormed script) (settings : Settings)
    (source : SourceFile) (name : String) :
    ∃ v₀ v, (View.off name).run script = some v₀ ∧
      (View.typed settings source name).run script = some v ∧ Located v₀ v := by
  obtain ⟨o, ho⟩ := Option.isSome_iff_exists.mp hscript
  have hstart := Located.start name (TypedRecorder.create settings source ∅).2
    (TypedRecorder.create settings source ∅).1
  obtain ⟨v₀, v, h₀, h₁, -, -, h⟩ := View.run_simulation
    (fun _ ho h hs h₀ h₁ => Located.step h ho hs h₀ h₁)
    (Outline.Describes.start name _ _) (Outline.Describes.start name _ _) hstart ho
  exact ⟨v₀, v, h₀, h₁, h⟩

end DebugMetadata.Script

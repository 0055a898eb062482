import DebugMetadata.Proofs.Script.Outline
import DebugMetadata.Proofs.Transparency.Locations
import DebugMetadata.Proofs.Transparency.Selection

/-!
# A run beside a tagged recorder

The module of a script that runs beside a tagged recorder, cut down to what the
script itself has emitted, is that of the same script without a recorder.  All
else are markers.
-/

namespace DebugMetadata

theorem Module.code_graph (m : Module) (graph : Graph) : { m with graph }.code = m.code := rfl

namespace Script

/-- The second view is the first one with markers. -/
structure Marked (v₀ v : View) : Prop where
  off : v₀.recorder = .off
  tagged : ∃ r, v.recorder = .tagged r
  code : (v.module.keep v.emitted.toList).code = v₀.module.code
  closed : v.module.Closed v.emitted.toList
  cursors : v.cursors = v₀.cursors
  emitted : v.emitted.toList.map (rankIn v.emitted.toList) = v₀.emitted.toList
  increasing : v.emitted.toList.Pairwise fun a b => a.index < b.index
  plain : ∀ id ∈ v.emitted.toList, ∀ i ∈ v.module.instruction? id, i.attachments = ∅
  markers : ∀ id, id ∉ v.emitted.toList → ∀ i ∈ v.module.instruction? id,
    ∃ c line location, i = TaggedRecorder.markerAt c line location

namespace Marked

variable {v₀ v v₀' v' : View} {o o' : Outline} {n : Nat} {c : Cursor}

theorem functionIndex (h : Marked v₀ v) :
    v.module.functionIndex = v₀.module.functionIndex := by
  have hindex := congrArg Module.functionIndex h.code
  exact hindex

theorem functions (h : Marked v₀ v) : v.module.functions = v₀.module.functions := by
  have hfunctions := congrArg Module.functions h.code
  exact hfunctions

theorem size_blocks (h : Marked v₀ v) : v.module.blocks.size = v₀.module.blocks.size := by
  have hblocks := congrArg (fun m : Module => m.blocks.size) h.code
  rwa [Module.code, Module.keep, Array.size_map] at hblocks

theorem size_instructions (h : Marked v₀ v) :
    v₀.module.instructions.size = v.emitted.toList.length := by
  rw [← h.closed.size_keep]
  exact (congrArg (fun m : Module => m.instructions.size) h.code).symm

/-- The handle of a position is the place among what the script emitted. -/
theorem handle_eq (h : Marked v₀ v) {position : InstrId} (hlt : position.index < v.emitted.size) :
    v₀.handle position = rankIn v.emitted.toList (v.handle position) := by
  have hget : v₀.emitted[position.index]? =
      (v.emitted[position.index]?).map (rankIn v.emitted.toList) := by
    rw [← Array.getElem?_toList, ← h.emitted, List.getElem?_map, Array.getElem?_toList]
  rw [Array.getElem?_eq_getElem hlt] at hget
  rw [View.handle, View.handle, Array.getD_eq_getD_getElem?, Array.getD_eq_getD_getElem?, hget,
    Array.getElem?_eq_getElem hlt]
  rfl

theorem handle_mem {position : InstrId} (hlt : position.index < v.emitted.size) :
    v.handle position ∈ v.emitted.toList := by
  rw [View.handle, Array.getD_eq_getD_getElem?, Array.getElem?_eq_getElem hlt]
  exact Array.getElem_mem_toList hlt

/-- What a recorder does to the graph and to itself does not show. -/
theorem graph (h : Marked v₀ v) (graph : Graph) {recorder : Recorder}
    (hr : ∃ r, recorder = .tagged r) :
    Marked v₀ { v with module := { v.module with graph }, recorder } := by
  refine ⟨h.off, hr, ?_, h.closed.graph graph, h.cursors, h.emitted, h.increasing, h.plain,
    h.markers⟩
  rw [Module.keep_graph, Module.code_graph]
  exact h.code

theorem pushMarker (h : Marked v₀ v) (c : Cursor) (line : Nat) (location : NodeId) (graph : Graph)
    {recorder : Recorder} (hr : ∃ r, recorder = .tagged r) :
    Marked v₀ { v with
      module := { v.module with graph }.pushInstruction
        (TaggedRecorder.markerAt c line location)
      recorder } := by
  have hclosed := h.closed.graph graph
  refine ⟨h.off, hr, ?_, hclosed.pushInstruction _, h.cursors, h.emitted, h.increasing, ?_, ?_⟩
  · rw [hclosed.keep_pushInstruction, Module.keep_graph, Module.code_graph]
    exact h.code
  · intro id hid i hi
    rw [hclosed.instruction?_push _ hid] at hi
    exact h.plain id hid i hi
  · intro id hid i hi
    rcases Module.instruction?_push_cases hi with ⟨-, rfl⟩ | hi
    · exact ⟨c, line, location, rfl⟩
    · exact h.markers id hid i hi

theorem start (name : String) (graph : Graph) (r : TaggedRecorder) :
    Marked (View.off name) { module := { name, graph }, recorder := .tagged r } := by
  have hempty : ∀ id : InstrId, (#[] : Array Instruction)[id.index]? = none :=
    fun _ => Array.getElem?_empty
  refine ⟨rfl, ⟨r, rfl⟩, ?_, ⟨?_, ?_, ?_⟩, rfl, rfl, List.Pairwise.nil, ?_, ?_⟩
  · rw [Module.keep, Array.map_empty]
    rfl
  · intro id hid
    cases hid
  · intro b hb
    cases hb with
    | mk hb => cases hb
  · intro id hid
    cases hid
  · intro id hid
    cases hid
  · intro id _ i hi
    rw [Module.instruction?, hempty] at hi
    cases hi

/-! ## Steps -/

theorem emit (h : Marked v₀ v) {operation : Operation} (hn : v.cursors[n]? = some c)
    (hblock : c.block.index < v.module.blocks.size)
    (huses : ∀ position ∈ operation.uses, position.index < v.emitted.size)
    (h₀ : v₀.step (.emit n operation) = some v₀')
    (h₁ : v.step (.emit n operation) = some v') : Marked v₀' v' := by
  have hn₀ := hn
  have hblock₀ := hblock
  rw [h.cursors] at hn₀
  rw [h.size_blocks] at hblock₀
  rw [View.step_emit operation hn₀ hblock₀] at h₀
  rw [View.step_emit operation hn hblock] at h₁
  cases h₀
  cases h₁
  have hrename : operation.rename v₀.handle =
      (operation.rename v.handle).rename (rankIn v.emitted.toList) := by
    rw [Operation.rename_rename]
    apply Operation.rename_congr
    intro position hposition
    exact h.handle_eq (huses position hposition)
  have hclosed : ∀ used ∈ (operation.rename v.handle).uses, used ∈ v.emitted.toList := by
    rw [Operation.uses_rename]
    intro used hused
    obtain ⟨position, hposition, rfl⟩ := List.mem_map.mp hused
    exact handle_mem (huses position hposition)
  have hemitted : (v.emitted.push ⟨v.module.instructions.size⟩).toList =
      v.emitted.toList ++ [⟨v.module.instructions.size⟩] := Array.toList_push
  refine ⟨h.off, h.tagged, ?_, ?_, h.cursors, ?_, ?_, ?_, ?_⟩
  · rw [View.emit, hemitted, h.closed.keep_pushInstruction_concat _ hclosed, View.emit, hrename]
    exact congrArg (fun m : Module => m.pushInstruction _) h.code
  · rw [View.emit, hemitted]
    exact h.closed.pushInstruction_concat hclosed
  · rw [View.emit, View.emit, hemitted, Array.toList_push, List.map_append, List.map_singleton,
      rankIn_concat_self h.closed.not_mem, h.size_instructions, ← h.emitted]
    congr 1
    apply List.map_congr_left
    intro id hid
    exact rankIn_append_of_mem hid _
  · rw [View.emit, hemitted, List.pairwise_append]
    refine ⟨h.increasing, List.pairwise_singleton _ _, ?_⟩
    intro id hid last hlast
    rw [List.mem_singleton.mp hlast]
    exact h.closed.listed id hid
  · rw [View.emit, hemitted]
    intro id hid i hi
    rcases Module.instruction?_push_cases hi with ⟨-, rfl⟩ | hi'
    · rfl
    · rcases List.mem_append.mp hid with hid | hid
      · exact h.plain id hid i hi'
      · rw [List.mem_singleton.mp hid, Module.instruction?,
          Array.getElem?_eq_none (Nat.le_refl _)] at hi'
        cases hi'
  · rw [View.emit, hemitted]
    intro id hid i hi
    rw [List.mem_append, List.mem_singleton, not_or] at hid
    rcases Module.instruction?_push_cases hi with ⟨hlast, -⟩ | hi
    · exact absurd hlast hid.2
    · exact h.markers id hid.1 i hi

theorem addFunction (h : Marked v₀ v) {name : String} {signature : Signature}
    (h₀ : v₀.step (.addFunction name signature) = some v₀')
    (h₁ : v.step (.addFunction name signature) = some v') : Marked v₀' v' := by
  cases htaken : v.module.functionIndex.contains name with
  | true =>
      have htaken₀ := htaken
      rw [h.functionIndex] at htaken₀
      rw [View.step_addFunction_of_taken signature htaken₀] at h₀
      rw [View.step_addFunction_of_taken signature htaken] at h₁
      cases h₀
      cases h₁
      exact h
  | false =>
      have hfresh₀ := htaken
      rw [h.functionIndex] at hfresh₀
      rw [View.step_addFunction_of_fresh signature hfresh₀] at h₀
      rw [View.step_addFunction_of_fresh signature htaken] at h₁
      cases h₀
      cases h₁
      refine ⟨h.off, h.tagged, ?_, h.closed.pushFunction name signature, h.cursors, h.emitted,
        h.increasing, h.plain, h.markers⟩
      rw [Module.keep_pushFunction]
      exact congrArg (fun m : Module => m.pushFunction name signature) h.code

theorem appendBlock (h : Marked v₀ v) {function : FunctionId} {label : String}
    (hlt : function.index < v.module.functions.size)
    (h₀ : v₀.step (.appendBlock function label) = some v₀')
    (h₁ : v.step (.appendBlock function label) = some v') : Marked v₀' v' := by
  have hlt₀ := hlt
  rw [h.functions] at hlt₀
  rw [View.step_appendBlock label hlt₀] at h₀
  rw [View.step_appendBlock label hlt] at h₁
  cases h₀
  cases h₁
  refine ⟨h.off, h.tagged, ?_, h.closed.pushBlock function label, h.cursors, h.emitted,
    h.increasing, h.plain, h.markers⟩
  rw [Module.keep_pushBlock]
  exact congrArg (fun m : Module => m.pushBlock function label) h.code

theorem openCursor (h : Marked v₀ v) {block : BlockId}
    (h₀ : v₀.step (.openCursor block) = some v₀') (h₁ : v.step (.openCursor block) = some v') :
    Marked v₀' v' := by
  cases h₀
  cases h₁
  refine ⟨h.off, h.tagged, h.code, h.closed, ?_, h.emitted, h.increasing, h.plain, h.markers⟩
  rw [h.cursors]

theorem moveTo (h : Marked v₀ v) {block : BlockId} (hn : v.cursors[n]? = some c)
    (h₀ : v₀.step (.moveTo n block) = some v₀') (h₁ : v.step (.moveTo n block) = some v') :
    Marked v₀' v' := by
  have hn₀ := hn
  rw [h.cursors] at hn₀
  rw [View.step_moveTo block hn₀] at h₀
  rw [View.step_moveTo block hn] at h₁
  cases h₀
  cases h₁
  refine ⟨h.off, h.tagged, h.code, h.closed, ?_, h.emitted, h.increasing, h.plain, h.markers⟩
  rw [View.setCursor, View.setCursor, h.cursors]

theorem markSubprogram (h : Marked v₀ v) {function : FunctionId} {name : String} {line : Nat}
    (hlt : function.index < v.module.functions.size)
    (h₀ : v₀.step (.markSubprogram function name line) = some v₀')
    (h₁ : v.step (.markSubprogram function name line) = some v') : Marked v₀' v' := by
  obtain ⟨r, hr⟩ := h.tagged
  have hf : v.module.function? function = some v.module.functions[function.index] :=
    Array.getElem?_eq_getElem hlt
  rw [View.step_markSubprogram_off h.off] at h₀
  rw [View.step_markSubprogram_tagged hr hf, TaggedRecorder.module_addSubprogram] at h₁
  cases h₀
  cases h₁
  exact h.graph _ ⟨_, rfl⟩

theorem finalize (h : Marked v₀ v) (h₀ : v₀.step .finalize = some v₀')
    (h₁ : v.step .finalize = some v') : Marked v₀' v' := by
  obtain ⟨r, hr⟩ := h.tagged
  rw [View.step_finalize_off h.off] at h₀
  rw [View.step_finalize_tagged hr] at h₁
  cases h₀
  cases h₁
  exact h.graph _ ⟨r, hr⟩

theorem markLocation (h : Marked v₀ v) {line : Nat} (hready : v.recorder.IsReady)
    (hn : v.cursors[n]? = some c) (hblock : c.block.index < v.module.blocks.size)
    (h₀ : v₀.step (.markLocation n line) = some v₀')
    (h₁ : v.step (.markLocation n line) = some v') : Marked v₀' v' := by
  obtain ⟨r, hr⟩ := h.tagged
  rw [hr] at hready
  obtain ⟨scope, hscope⟩ := Option.isSome_iff_exists.mp hready
  have hn₀ := hn
  rw [h.cursors] at hn₀
  rw [View.step_markLocation_off h.off hn₀] at h₀
  cases h₀
  by_cases hline : r.lastLine = some line
  · rw [View.step_markLocation_of_repeated hr hline hn] at h₁
    cases h₁
    exact h
  · rw [View.step_markLocation_of_new hr hline hscope hn hblock] at h₁
    cases h₁
    exact h.pushMarker c line _ _ ⟨_, rfl⟩

theorem step (h : Marked v₀ v) (ho : o.Describes v) {s : Step} (hs : o.after? s = some o')
    (h₀ : v₀.step s = some v₀') (h₁ : v.step s = some v') : Marked v₀' v' := by
  cases s with
  | addFunction name signature => exact h.addFunction h₀ h₁
  | appendBlock function label =>
      simp only [Outline.after?, Option.ite_none_right_eq_some] at hs
      exact h.appendBlock (ho.lt_size hs.1) h₀ h₁
  | openCursor block => exact h.openCursor h₀ h₁
  | moveTo n block =>
      simp only [Outline.after?, Option.ite_none_right_eq_some] at hs
      obtain ⟨c, hn⟩ := ho.exists_cursor_of_lt hs.1
      exact h.moveTo hn h₀ h₁
  | emit n operation =>
      simp only [Outline.after?, Option.ite_none_right_eq_some] at hs
      obtain ⟨c, hn, hblock⟩ := ho.exists_cursor hs.1.1
      rw [← ho.emitted] at hs
      exact h.emit hn hblock hs.1.2 h₀ h₁
  | markSubprogram function name line =>
      simp only [Outline.after?, Option.ite_none_right_eq_some] at hs
      exact h.markSubprogram (ho.lt_size hs.1) h₀ h₁
  | markLocation n line =>
      simp only [Outline.after?, Option.ite_none_right_eq_some] at hs
      obtain ⟨c, hn, hblock⟩ := ho.exists_cursor hs.1.2
      exact h.markLocation (ho.ready hs.1.1) hn hblock h₀ h₁
  | finalize => exact h.finalize h₀ h₁

end Marked

/-- Beside a tagged recorder a script does what it does without one, but for the
markers. -/
theorem exists_marked {script : List Step} (hscript : WellFormed script) (settings : Settings)
    (source : SourceFile) (name : String) :
    ∃ v₀ v, (View.off name).run script = some v₀ ∧
      (View.tagged settings source name).run script = some v ∧ Marked v₀ v := by
  obtain ⟨o, ho⟩ := Option.isSome_iff_exists.mp hscript
  have hstart := Marked.start name (TaggedRecorder.create settings source ∅).2
    (TaggedRecorder.create settings source ∅).1
  obtain ⟨v₀, v, h₀, h₁, -, -, h⟩ := View.run_simulation
    (fun _ ho h hs h₀ h₁ => Marked.step h ho hs h₀ h₁)
    (Outline.Describes.start name _ _) (Outline.Describes.start name _ _) hstart ho
  exact ⟨v₀, v, h₀, h₁, h⟩

end Script

end DebugMetadata

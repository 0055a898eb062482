import DebugMetadata.Proofs.Lines.Markers
import Mathlib.Data.List.Forall2

/-!
# The lines of a tagged recorder

Beside a tagged recorder an instruction has the location of the line that was
marked last in its function, unless the recorder has passed over it.  It passes
over a line that repeats the last one, also where that was marked in another
function.
-/

namespace DebugMetadata.Script

open TaggedRecorder (IsScopeOf HasLine LocatedAt)

/-- Beside a tagged recorder everything is located as the progress says. -/
structure TaggedLines (p : Progress) (v : View) : Prop where
  indexed : v.module.graph.Indexed
  recorder : ∃ r, v.recorder = .tagged r ∧ r.lastLine = p.lastLine? ∧
    ∀ site ∈ p.site?, ∃ scope, r.active = some scope ∧
      IsScopeOf v.module.graph site.function scope
  owned : ∀ n < v.module.instructions.size, ∃ f ∈ p.begun, v.module.owner? ⟨n⟩ = some f
  current : ∀ site ∈ p.site?, LocatedAt v.module.graph site
    (v.module.lastLocation? site.function v.module.instructions.size)
  sites : List.Forall₂
    (fun site id => id.index < v.module.instructions.size ∧
      v.module.owner? id = some site.function ∧
      LocatedAt v.module.graph site (v.module.lastLocation? site.function id.index))
    p.sites v.emitted.toList

namespace TaggedLines

variable {o o' : Outline} {p p' : Progress} {v v' : View} {n : Nat} {c : Cursor} {m : Module}

theorem lastLocation?_eq (h : TaggedLines p v) (hkeeps : v.module.Keeps m) {bound : Nat}
    (hbound : bound ≤ v.module.instructions.size) (function : FunctionId) :
    m.lastLocation? function bound = v.module.lastLocation? function bound := by
  apply hkeeps.lastLocation?
  intro n hn
  obtain ⟨f, -, hf⟩ := h.owned n (Nat.lt_of_lt_of_le hn hbound)
  exact ⟨f, hf⟩

theorem sites_of_keeps (h : TaggedLines p v) (hkeeps : v.module.Keeps m)
    (hsize : v.module.instructions.size ≤ m.instructions.size) :
    List.Forall₂
      (fun site id => id.index < m.instructions.size ∧ m.owner? id = some site.function ∧
        LocatedAt m.graph site (m.lastLocation? site.function id.index))
      p.sites v.emitted.toList := by
  apply h.sites.imp
  rintro site id ⟨hlt, howner, hlocated⟩
  refine ⟨Nat.lt_of_lt_of_le hlt hsize, hkeeps.owners _ _ howner, ?_⟩
  rw [h.lastLocation?_eq hkeeps (Nat.le_of_lt hlt)]
  exact hlocated.mono hkeeps.graph

theorem of_keeps (h : TaggedLines p v) (hkeeps : v.module.Keeps m)
    (hinstrs : m.instructions = v.module.instructions) (hindexed : m.graph.Indexed) :
    TaggedLines p { v with module := m } := by
  obtain ⟨r, hr, hlast, hactive⟩ := h.recorder
  refine ⟨hindexed, ⟨r, hr, hlast, ?_⟩, ?_, ?_, ?_⟩
  · intro site hsite
    obtain ⟨scope, hscope, hof⟩ := hactive site hsite
    exact ⟨scope, hscope, hof.mono hkeeps.graph⟩
  · intro n hn
    rw [hinstrs] at hn
    obtain ⟨f, hf, howner⟩ := h.owned n hn
    exact ⟨f, hf, hkeeps.owners _ _ howner⟩
  · intro site hsite
    rw [hinstrs, h.lastLocation?_eq hkeeps (Nat.le_refl _)]
    exact (h.current site hsite).mono hkeeps.graph
  · exact h.sites_of_keeps hkeeps (Nat.le_of_eq (congrArg Array.size hinstrs.symm))

theorem use (h : TaggedLines p v) (huse : p.use? o n = some p') : TaggedLines p' v := by
  obtain ⟨rfl, -, -⟩ := Progress.use?_eq_some huse
  exact ⟨h.indexed, h.recorder, h.owned, h.current, h.sites⟩

theorem cursors (h : TaggedLines p v) (cursors : Array Cursor) :
    TaggedLines p { v with cursors } :=
  ⟨h.indexed, h.recorder, h.owned, h.current, h.sites⟩

/-! ## Steps that build code -/

theorem addFunction (h : TaggedLines p v) {name : String} {signature : Signature}
    (hstep : v.step (.addFunction name signature) = some v') : TaggedLines p v' := by
  rcases View.step_addFunction_cases hstep with rfl | rfl
  · exact h
  · exact h.of_keeps (v.module.keeps_pushFunction name signature) rfl h.indexed

theorem appendBlock (h : TaggedLines p v) {function : FunctionId} {label : String}
    (hlt : function.index < v.module.functions.size)
    (hstep : v.step (.appendBlock function label) = some v') : TaggedLines p v' := by
  rw [View.step_appendBlock label hlt] at hstep
  cases hstep
  exact h.of_keeps (v.module.keeps_pushBlock function label) rfl h.indexed

theorem moveTo (h : TaggedLines p v) {block : BlockId} (hn : v.cursors[n]? = some c)
    (hstep : v.step (.moveTo n block) = some v') : TaggedLines p v' := by
  rw [View.step_moveTo block hn] at hstep
  cases hstep
  exact h.cursors _

theorem owned_push (h : TaggedLines p v) {i : Instruction} {site : Site} (hsite : site ∈ p.site?)
    (hblock : (v.module.block? i.block).map (·.function) = some site.function) :
    ∀ n < (v.module.pushInstruction i).instructions.size, ∃ f ∈ p.begun,
      (v.module.pushInstruction i).owner? ⟨n⟩ = some f := by
  intro n hn
  change n < (v.module.instructions.push i).size at hn
  rw [Array.size_push] at hn
  by_cases hlast : n = v.module.instructions.size
  · subst hlast
    exact ⟨site.function, Progress.function_mem_begun hsite,
      Module.owner?_pushInstruction_size hblock⟩
  · obtain ⟨f, hf, howner⟩ := h.owned n (by omega)
    exact ⟨f, hf, (v.module.keeps_pushInstruction i).owners _ _ howner⟩

theorem lastLocation?_push (h : TaggedLines p v) {i : Instruction} {site : Site}
    (hblock : (v.module.block? i.block).map (·.function) = some site.function) :
    (v.module.pushInstruction i).lastLocation? site.function
        (v.module.pushInstruction i).instructions.size =
      (i.attachments.find? TaggedRecorder.locationKey).or
        (v.module.lastLocation? site.function v.module.instructions.size) := by
  have hsize : (v.module.pushInstruction i).instructions.size = v.module.instructions.size + 1 :=
    Array.size_push _
  rw [hsize, Module.lastLocation?, Module.locationIn?_pushInstruction_size hblock,
    h.lastLocation?_eq (v.module.keeps_pushInstruction i) (Nat.le_refl _)]

theorem emit (h : TaggedLines p v) {operation : Operation} {site : Site}
    (hn : v.cursors[n]? = some c) (hblock : c.block.index < v.module.blocks.size)
    (howner : (v.module.block? c.block).map (·.function) = some site.function)
    (hsite : site ∈ p.site?) (hstep : v.step (.emit n operation) = some v') :
    TaggedLines { p with sites := p.sites ++ [site] } v' := by
  rw [View.step_emit operation hn hblock] at hstep
  cases hstep
  have hkeeps := v.module.keeps_pushInstruction
    { operation := operation.rename v.handle, block := c.block, location := c.location }
  have hsize := v.module.size_pushInstruction
    { operation := operation.rename v.handle, block := c.block, location := c.location }
  refine ⟨h.indexed, h.recorder, h.owned_push hsite howner, ?_, ?_⟩
  · intro site' hsite'
    cases Option.mem_unique hsite hsite'
    rw [View.emit, h.lastLocation?_push howner]
    exact h.current site hsite
  · rw [View.emit, Array.toList_push]
    apply List.rel_append (h.sites_of_keeps hkeeps (Nat.le_of_lt (hsize ▸ Nat.lt_succ_self _)))
    refine .cons ⟨hsize ▸ Nat.lt_succ_self _, Module.owner?_pushInstruction_size howner, ?_⟩ .nil
    rw [h.lastLocation?_eq hkeeps (Nat.le_refl _)]
    exact h.current site hsite

/-! ## Calls of the recorder -/

theorem pushMarker (h : TaggedLines p v) {site : Site} {line : Nat} {r : TaggedRecorder}
    {scope location : NodeId} (hsite : site ∈ p.site?) (hr : v.recorder = .tagged r)
    (hscope : r.active = some scope) (hline : r.lastLine ≠ some line)
    (howner : (v.module.block? c.block).map (·.function) = some site.function)
    (hnode : v.module.graph.node? location =
      some (.tuple (TaggedRecorder.locationOperands line scope))) :
    TaggedLines { p with marked := p.marked ++ [line] }
      { v with
        recorder := .tagged { r with lastLine := some line }
        module := v.module.pushInstruction (TaggedRecorder.markerAt c line location) } := by
  obtain ⟨r', hr', hlast, hactive⟩ := h.recorder
  cases hr.symm.trans hr'
  obtain ⟨scope', hscope', hof⟩ := hactive site hsite
  cases hscope.symm.trans hscope'
  have hmark := Progress.site?_mark hsite line
  have hsize := v.module.size_pushInstruction (TaggedRecorder.markerAt c line location)
  refine ⟨h.indexed, ⟨_, rfl, (p.lastLine?_mark line).symm, ?_⟩, h.owned_push hsite howner, ?_,
    h.sites_of_keeps (v.module.keeps_pushInstruction _)
      (Nat.le_of_lt (hsize ▸ Nat.lt_succ_self _))⟩
  · intro site' hsite'
    cases Option.mem_unique hmark hsite'
    exact ⟨scope, hscope, hof⟩
  · intro site' hsite'
    cases Option.mem_unique hmark hsite'
    have hnew : site.lastLine? ≠ some line := by
      rw [Progress.lastLine?_eq hsite, ← hlast]
      exact hline
    have hlocation := h.lastLocation?_push (i := TaggedRecorder.markerAt c line location) howner
    rw [TaggedRecorder.find?_markerAt, Option.some_or] at hlocation
    dsimp only [Site.mark]
    rw [hlocation]
    refine ⟨?_, ?_, ?_⟩
    · intro hempty
      exact absurd hempty (List.append_ne_nil_of_right_ne_nil _ (List.cons_ne_nil _ _))
    · intro hswallowed
      exact absurd hswallowed (Site.not_isSwallowed_mark_of_new hnew)
    · intro line' hline' _
      rw [List.getLast?_concat] at hline'
      cases hline'
      exact ⟨location, scope, rfl, hnode, hof⟩

theorem skipMarker (h : TaggedLines p v) {site : Site} {line : Nat} {r : TaggedRecorder}
    (hsite : site ∈ p.site?) (hr : v.recorder = .tagged r) (hline : r.lastLine = some line) :
    TaggedLines { p with marked := p.marked ++ [line] } v := by
  obtain ⟨r', hr', hlast, hactive⟩ := h.recorder
  cases hr.symm.trans hr'
  obtain ⟨scope, hscope, hof⟩ := hactive site hsite
  have hmark := Progress.site?_mark hsite line
  refine ⟨h.indexed, ⟨r, hr, hline.trans (p.lastLine?_mark line).symm, ?_⟩, h.owned, ?_, h.sites⟩
  · intro site' hsite'
    cases Option.mem_unique hmark hsite'
    exact ⟨scope, hscope, hof⟩
  · intro site' hsite'
    cases Option.mem_unique hmark hsite'
    apply (h.current site hsite).mark_of_repeated
    rw [Progress.lastLine?_eq hsite, ← hlast]
    exact hline

theorem markLocation (h : TaggedLines p v) {line : Nat} {site : Site}
    (hn : v.cursors[n]? = some c) (hblock : c.block.index < v.module.blocks.size)
    (howner : (v.module.block? c.block).map (·.function) = some site.function)
    (hsite : site ∈ p.site?) (hstep : v.step (.markLocation n line) = some v') :
    TaggedLines { p with marked := p.marked ++ [line] } v' := by
  obtain ⟨r, hr, -, hactive⟩ := h.recorder
  by_cases hline : r.lastLine = some line
  · rw [View.step_markLocation_of_repeated hr hline hn] at hstep
    cases hstep
    exact h.skipMarker hsite hr hline
  · obtain ⟨scope, hscope, -⟩ := hactive site hsite
    have hnode := h.indexed.node?_add (.tuple (TaggedRecorder.locationOperands line scope))
    have hgrows := v.module.graph.grows_add (.tuple (TaggedRecorder.locationOperands line scope))
    rw [View.step_markLocation_of_new hr hline hscope hn hblock, Graph.addTuple_eq_add] at hstep
    generalize v.module.graph.add (.tuple (TaggedRecorder.locationOperands line scope)) = added
      at hnode hgrows hstep
    cases hstep
    have hk := h.of_keeps (Module.keeps_graph hgrows.nodes) rfl (hgrows.indexed h.indexed)
    exact hk.pushMarker hsite hr hscope hline howner hnode

theorem markSubprogram (h : TaggedLines p v) (hnamed : v.module.Named) {function : FunctionId}
    {f : Function} {name : String} {line : Nat} (hf : v.module.function? function = some f)
    (hfresh : function ∉ p.begun)
    (hstep : v.step (.markSubprogram function name line) = some v') :
    TaggedLines { p with
      begun := p.begun ++ [function], before := p.lastLine?, marked := [], cursor := none } v' := by
  obtain ⟨r, hr, hlast, -⟩ := h.recorder
  have hfound : v.module.findFunction? f.name = some function := by
    rw [hnamed, Module.getElem?_names, hf]
    rfl
  have hscope := TaggedRecorder.isScopeOf_addSubprogram h.indexed r name line hfound
  have hgrows := r.grows_addSubprogram name f.name line v.module
  have hrecorder := r.recorder_addSubprogram name f.name line v.module
  have hmodule := r.module_addSubprogram name f.name line v.module
  rw [View.step_markSubprogram_tagged hr hf, Option.some.injEq] at hstep
  generalize r.addSubprogram name f.name line v.module = added
    at hscope hgrows hrecorder hmodule hstep
  subst hstep
  rw [hrecorder, hmodule]
  have hk := h.of_keeps (Module.keeps_graph hgrows.nodes) rfl (hgrows.indexed h.indexed)
  refine ⟨hk.indexed, ⟨_, rfl, hlast, ?_⟩, ?_, ?_, hk.sites⟩
  · intro site hsite
    obtain ⟨f', hf', rfl⟩ := Option.map_eq_some_iff.mp hsite
    rw [List.getLast?_concat] at hf'
    cases hf'
    exact ⟨added.1, rfl, hscope⟩
  · intro n hn
    obtain ⟨f', hf', howner⟩ := hk.owned n hn
    exact ⟨f', List.mem_append_left _ hf', howner⟩
  · intro site hsite
    obtain ⟨f', hf', rfl⟩ := Option.map_eq_some_iff.mp hsite
    rw [List.getLast?_concat] at hf'
    cases hf'
    refine ⟨fun _ => ?_, fun hswallowed => absurd rfl hswallowed.1, fun line' hline' => ?_⟩
    · apply Module.lastLocation?_eq_none
      intro n hn howner
      obtain ⟨f', hf', howner'⟩ := hk.owned n hn
      cases howner.symm.trans howner'
      exact hfresh hf'
    · cases hline'

theorem finalize (h : TaggedLines p v) (hstep : v.step .finalize = some v') :
    TaggedLines p v' := by
  obtain ⟨r, hr, -⟩ := h.recorder
  have hgrows := r.grows_finalGraph v.module.graph
  rw [View.step_finalize_tagged hr] at hstep
  generalize r.finalGraph v.module.graph = graph at hgrows hstep
  cases hstep
  exact h.of_keeps (Module.keeps_graph hgrows.nodes) rfl (hgrows.indexed h.indexed)

theorem step (h : TaggedLines p v) (ho : o.Describes v) {s : Step} (hs : o.after? s = some o')
    (hp : p.after? o' s = some p') (hstep : v.step s = some v') : TaggedLines p' v' := by
  cases s with
  | addFunction name signature =>
      cases hp
      exact h.addFunction hstep
  | appendBlock function label =>
      simp only [Outline.after?, Option.ite_none_right_eq_some] at hs
      cases hp
      exact h.appendBlock (ho.lt_size hs.1) hstep
  | openCursor block =>
      cases hp
      cases hstep
      exact h.cursors _
  | moveTo n block =>
      simp only [Outline.after?, Option.ite_none_right_eq_some] at hs
      obtain ⟨c, hn⟩ := ho.exists_cursor_of_lt hs.1
      exact (h.use hp).moveTo hn hstep
  | emit n operation =>
      simp only [Outline.after?, Option.ite_none_right_eq_some, Option.some.injEq] at hs
      obtain ⟨⟨hplace, -⟩, rfl⟩ := hs
      obtain ⟨c, hn, hblock⟩ := ho.exists_cursor hplace
      obtain ⟨p₁, huse, site, hsite, rfl⟩ := Progress.after?_emit hp
      exact (h.use huse).emit hn hblock
        (ho.owner_of_place hn (Progress.place?_of_use? huse hsite)) hsite hstep
  | markSubprogram function name line =>
      simp only [Outline.after?, Option.ite_none_right_eq_some] at hs
      obtain ⟨f, hf, -⟩ := ho.exists_function hs.1
      obtain ⟨hfresh, rfl⟩ := Progress.after?_markSubprogram hp
      exact h.markSubprogram ho.named hf hfresh hstep
  | markLocation n line =>
      simp only [Outline.after?, Option.ite_none_right_eq_some, Option.some.injEq] at hs
      obtain ⟨⟨-, hplace⟩, rfl⟩ := hs
      obtain ⟨c, hn, hblock⟩ := ho.exists_cursor hplace
      obtain ⟨p₁, huse, ⟨site, hsite⟩, rfl⟩ := Progress.after?_markLocation hp
      exact (h.use huse).markLocation hn hblock
        (ho.owner_of_place hn (Progress.place?_of_use? huse hsite)) hsite hstep
  | finalize =>
      cases hp
      exact h.finalize hstep

theorem start (name : String) {graph : Graph} (hindexed : graph.Indexed) {r : TaggedRecorder}
    (hlast : r.lastLine = none) :
    TaggedLines {} { module := { name, graph }, recorder := .tagged r } := by
  refine ⟨hindexed, ⟨r, rfl, hlast, ?_⟩, ?_, ?_, .nil⟩
  · intro site hsite
    cases hsite
  · intro n hn
    cases hn
  · intro site hsite
    cases hsite

end TaggedLines

/-- Beside a tagged recorder a script runs to its end, and everything is located. -/
theorem exists_tagged_lines {script : List Step} {sites : List Site}
    (hsites : sites? script = some sites) (settings : Settings) (source : SourceFile)
    (name : String) :
    ∃ v p, (View.tagged settings source name).run script = some v ∧ TaggedLines p v ∧
      p.sites = sites := by
  obtain ⟨⟨o, p⟩, hfold, rfl⟩ := Option.map_eq_some_iff.mp hsites
  have hindexed := (TaggedRecorder.grows_create settings source ∅).indexed Graph.indexed_empty
  have hlast := TaggedRecorder.lastLine_create settings source ∅
  rw [View.tagged]
  generalize TaggedRecorder.create settings source ∅ = created at hindexed hlast ⊢
  obtain ⟨v, hv, -, h⟩ := View.run_progress
    (fun ho _ h hs hp hstep => TaggedLines.step h ho hs hp hstep)
    (Outline.Describes.start name created.2 (.tagged created.1))
    (TaggedLines.start name hindexed hlast) hfold
  exact ⟨v, p, hv, h, rfl⟩

end DebugMetadata.Script

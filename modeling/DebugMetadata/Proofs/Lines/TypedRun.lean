import DebugMetadata.Proofs.Graph.Sharing
import DebugMetadata.Proofs.Lines.Progress
import DebugMetadata.Proofs.Scopes.Typed
import Mathlib.Data.List.Forall2

/-!
# The lines of a typed recorder

Beside a typed recorder an instruction has the location of the line that was
marked last in its function.  The cursor of the function carries it there.
-/

namespace DebugMetadata

namespace TypedRecorder

open Script (Site)

/-- The node is the subprogram attached to the function, and it has the name of the function as
its linkage name. -/
def IsScopeOf (m : Module) (function : FunctionId) (scope : NodeId) : Prop :=
  ∃ f content, m.function? function = some f ∧
    f.attachments.find? subprogramKey = some scope ∧
    m.graph.node? scope = some (.debug content true) ∧ content.kind = .subprogram ∧
    content.field? "linkageName" = some (.str f.name)

/-- The location is that of a line in the subprogram of a function. -/
def HasLine (m : Module) (location : Option NodeId) (line : Nat) (function : FunctionId) : Prop :=
  ∃ node scope, location = some node ∧
    m.graph.node? node = some (.debug (locationNode line scope) false) ∧
    IsScopeOf m function scope

/-- The location that an instruction has at a site. -/
structure LocatedAt (m : Module) (site : Site) (location : Option NodeId) : Prop where
  unmarked : site.marked = [] → location = none
  marked : ∀ line, site.marked.getLast? = some line → HasLine m location line site.function

/-- The second module has what the first one knows of the lines of some
functions. -/
structure KeepsLines (functions : List FunctionId) (m m' : Module) : Prop where
  graph : m.graph.Extends m'.graph
  scopes : ∀ f ∈ functions, ∀ scope, IsScopeOf m f scope → IsScopeOf m' f scope
  instrs : ∀ id i, m.instruction? id = some i → m'.instruction? id = some i

variable {functions : List FunctionId} {m m' : Module} {site : Site} {location : Option NodeId}

theorem LocatedAt.mono (h : LocatedAt m site location) (hkeeps : KeepsLines functions m m')
    (hsite : site.function ∈ functions) : LocatedAt m' site location := by
  refine ⟨h.unmarked, ?_⟩
  intro line hline
  obtain ⟨node, scope, hlocation, hnode, hscope⟩ := h.marked line hline
  exact ⟨node, scope, hlocation, hkeeps.graph.node? hnode, hkeeps.scopes _ hsite _ hscope⟩

namespace KeepsLines

theorem trans {m'' : Module} (h : KeepsLines functions m m') (h' : KeepsLines functions m' m'') :
    KeepsLines functions m m'' := by
  refine ⟨h.graph.trans h'.graph, ?_, ?_⟩
  · intro f hf scope hscope
    exact h'.scopes f hf scope (h.scopes f hf scope hscope)
  · intro id i hi
    exact h'.instrs id i (h.instrs id i hi)

theorem graph_of_extends {graph : Graph} (h : m.graph.Extends graph) :
    KeepsLines functions m { m with graph } := by
  refine ⟨h, ?_, fun _ _ hi => hi⟩
  rintro f - scope ⟨g, content, hg, hattached, hnode, hcontent⟩
  exact ⟨g, content, hg, hattached, h.node? hnode, hcontent⟩

theorem pushFunction (m : Module) (name : String) (signature : Signature) :
    KeepsLines functions m (m.pushFunction name signature) := by
  refine ⟨.refl _, ?_, fun _ _ hi => hi⟩
  rintro f - scope ⟨g, content, hg, hscope⟩
  exact ⟨g, content, Module.function?_pushFunction_of_some hg, hscope⟩

theorem pushBlock (m : Module) (function : FunctionId) (label : String) :
    KeepsLines functions m (m.pushBlock function label) := by
  refine ⟨.refl _, ?_, fun _ _ hi => hi⟩
  rintro f - scope ⟨g, content, hg, hscope⟩
  obtain ⟨g', hg', hattachments, hname⟩ := Module.function?_pushBlock_of_some hg function label
  refine ⟨g', content, hg', ?_⟩
  rw [hattachments, hname]
  exact hscope

theorem pushInstruction (m : Module) (i : Instruction) :
    KeepsLines functions m (m.pushInstruction i) :=
  ⟨.refl _, fun _ _ _ hscope => hscope, fun _ _ hi => Module.instruction?_pushInstruction_of_some hi⟩

theorem attachToFunction {function : FunctionId} (h : function ∉ functions) (m : Module)
    (key : String) (node : NodeId) :
    KeepsLines functions m (m.attachToFunction function key node) := by
  refine ⟨.refl _, ?_, fun _ _ hi => hi⟩
  rintro f hf scope ⟨g, content, hg, hscope⟩
  have hne : f ≠ function := fun heq => h (heq ▸ hf)
  refine ⟨g, content, ?_, hscope⟩
  rw [Module.function?_attachToFunction, if_neg hne]
  exact hg

end KeepsLines

end TypedRecorder

namespace Script

open TypedRecorder (IsScopeOf LocatedAt KeepsLines)

/-- Beside a typed recorder everything is located as the progress says. -/
structure TypedLines (p : Progress) (v : View) : Prop where
  indexed : v.module.graph.Indexed
  recorder : ∃ r, v.recorder = .typed r ∧
    ∀ site ∈ p.site?, ∃ scope, r.active = some scope ∧ IsScopeOf v.module site.function scope
  fresh : ∀ n, n ∉ p.used → ∀ c, v.cursors[n]? = some c → c.location = none
  taken : ∀ n, p.cursor = some n → n ∈ p.used
  used : ∀ n ∈ p.used, n < v.cursors.size
  unmarked : p.cursor = none → p.marked = []
  cursor : ∀ n, p.cursor = some n → ∀ c, v.cursors[n]? = some c → ∀ site ∈ p.site?,
    LocatedAt v.module site c.location
  sites : List.Forall₂
    (fun site id => site.function ∈ p.begun ∧
      ∃ i, v.module.instruction? id = some i ∧ LocatedAt v.module site i.location)
    p.sites v.emitted.toList

namespace TypedLines

variable {o o' : Outline} {p p' : Progress} {v v' : View} {n : Nat} {c : Cursor}

theorem of_keeps (h : TypedLines p v) {m : Module} (hkeeps : KeepsLines p.begun v.module m)
    (hindexed : m.graph.Indexed) : TypedLines p { v with module := m } := by
  obtain ⟨r, hr, hactive⟩ := h.recorder
  refine ⟨hindexed, ⟨r, hr, ?_⟩, h.fresh, h.taken, h.used, h.unmarked, ?_, ?_⟩
  · intro site hsite
    obtain ⟨scope, hscope, hof⟩ := hactive site hsite
    exact ⟨scope, hscope, hkeeps.scopes _ (Progress.function_mem_begun hsite) _ hof⟩
  · intro n hn c hc site hsite
    exact (h.cursor n hn c hc site hsite).mono hkeeps (Progress.function_mem_begun hsite)
  · apply h.sites.imp
    rintro site id ⟨hsite, i, hi, hlocated⟩
    exact ⟨hsite, i, hkeeps.instrs id i hi, hlocated.mono hkeeps hsite⟩

/-- The cursor of a function carries the line that was marked last in it. -/
theorem use (h : TypedLines p v) (huse : p.use? o n = some p') (hn : v.cursors[n]? = some c) :
    TypedLines p' v ∧ p'.cursor = some n := by
  obtain ⟨rfl, hcursor, -⟩ := Progress.use?_eq_some huse
  refine ⟨⟨h.indexed, h.recorder, ?_, ?_, ?_, ?_, ?_, h.sites⟩, rfl⟩
  · intro n' hn'
    exact h.fresh n' fun hmem => hn' (List.mem_cons_of_mem n hmem)
  · intro n' hn'
    cases hn'
    exact List.mem_cons_self
  · intro n' hn'
    rcases List.mem_cons.mp hn' with rfl | hn'
    · exact (Array.getElem?_eq_some_iff.mp hn).1
    · exact h.used n' hn'
  · intro hnone
    cases hnone
  · intro n' hn' c' hc' site hsite
    cases hn'
    rcases hcursor with hcursor | ⟨hcursor, hunused⟩
    · exact h.cursor n hcursor c' hc' site hsite
    · have hmarked : site.marked = [] := by
        obtain ⟨f, -, rfl⟩ := Option.map_eq_some_iff.mp hsite
        exact h.unmarked hcursor
      refine ⟨fun _ => h.fresh n hunused c' hc', ?_⟩
      intro line hline
      rw [hmarked] at hline
      cases hline

/-! ## Steps -/

theorem addFunction (h : TypedLines p v) {name : String} {signature : Signature}
    (hstep : v.step (.addFunction name signature) = some v') : TypedLines p v' := by
  rcases View.step_addFunction_cases hstep with rfl | rfl
  · exact h
  · exact h.of_keeps (.pushFunction v.module name signature) h.indexed

theorem appendBlock (h : TypedLines p v) {function : FunctionId} {label : String}
    (hlt : function.index < v.module.functions.size)
    (hstep : v.step (.appendBlock function label) = some v') : TypedLines p v' := by
  rw [View.step_appendBlock label hlt] at hstep
  cases hstep
  exact h.of_keeps (.pushBlock v.module function label) h.indexed

theorem openCursor (h : TypedLines p v) {block : BlockId}
    (hstep : v.step (.openCursor block) = some v') : TypedLines p v' := by
  cases hstep
  refine ⟨h.indexed, h.recorder, ?_, h.taken, ?_, h.unmarked, ?_, h.sites⟩
  · intro n hn c hc
    rw [Array.getElem?_push] at hc
    split at hc
    · cases hc
      rfl
    · exact h.fresh n hn c hc
  · intro n hn
    rw [Array.size_push]
    exact Nat.lt_succ_of_lt (h.used n hn)
  · intro n hn c hc
    rw [Array.getElem?_push, if_neg (Nat.ne_of_lt (h.used n (h.taken n hn)))] at hc
    exact h.cursor n hn c hc

theorem moveTo (h : TypedLines p v) {block : BlockId} (hcursor : p.cursor = some n)
    (hn : v.cursors[n]? = some c) (hstep : v.step (.moveTo n block) = some v') :
    TypedLines p v' := by
  rw [View.step_moveTo block hn] at hstep
  cases hstep
  refine ⟨h.indexed, h.recorder, ?_, h.taken, ?_, h.unmarked, ?_, h.sites⟩
  · intro n' hn' c' hc'
    have hne : n ≠ n' := fun heq => hn' (heq ▸ h.taken n hcursor)
    rw [View.getElem?_setCursor_of_ne hne] at hc'
    exact h.fresh n' hn' c' hc'
  · intro n' hn'
    rw [View.size_setCursor]
    exact h.used n' hn'
  · intro n' hn' c' hc' site hsite
    have heq : n = n' := Option.some.inj (hcursor.symm.trans hn')
    subst heq
    rw [View.getElem?_setCursor_self hn] at hc'
    cases hc'
    exact h.cursor n hcursor c hn site hsite

theorem emit (h : TypedLines p v) {operation : Operation} {site : Site}
    (hcursor : p.cursor = some n) (hn : v.cursors[n]? = some c)
    (hblock : c.block.index < v.module.blocks.size) (hsite : site ∈ p.site?)
    (hstep : v.step (.emit n operation) = some v') :
    TypedLines { p with sites := p.sites ++ [site] } v' := by
  rw [View.step_emit operation hn hblock] at hstep
  cases hstep
  have hkeeps : KeepsLines p.begun v.module _ := .pushInstruction v.module
    { operation := operation.rename v.handle, block := c.block, location := c.location }
  have hk := h.of_keeps hkeeps h.indexed
  refine ⟨hk.indexed, hk.recorder, hk.fresh, hk.taken, hk.used, hk.unmarked, hk.cursor, ?_⟩
  rw [View.emit, Array.toList_push]
  apply List.rel_append hk.sites
  exact .cons ⟨Progress.function_mem_begun hsite, _, Module.instruction?_pushInstruction_size _ _,
    hk.cursor n hcursor c hn site hsite⟩ .nil

theorem markLocation (h : TypedLines p v) {line : Nat} {site : Site}
    (hcursor : p.cursor = some n) (hn : v.cursors[n]? = some c) (hsite : site ∈ p.site?)
    (hstep : v.step (.markLocation n line) = some v') :
    TypedLines { p with marked := p.marked ++ [line] } v' := by
  obtain ⟨r, hr, hactive⟩ := h.recorder
  obtain ⟨scope, hscope, hof⟩ := hactive site hsite
  have hnode := h.indexed.node?_add (.debug (TypedRecorder.locationNode line scope) false)
  have hgrows := v.module.graph.grows_add (.debug (TypedRecorder.locationNode line scope) false)
  rw [View.step_markLocation_typed hr hscope hn, Graph.addDebug_eq_add] at hstep
  generalize v.module.graph.add (.debug (TypedRecorder.locationNode line scope) false) = added
    at hnode hgrows hstep
  cases hstep
  have hkeeps : KeepsLines p.begun v.module { v.module with graph := added.2 } :=
    .graph_of_extends hgrows.nodes
  have hk := h.of_keeps hkeeps (hgrows.indexed h.indexed)
  have hof' := hkeeps.scopes _ (Progress.function_mem_begun hsite) _ hof
  refine ⟨hk.indexed, ⟨r, hr, ?_⟩, ?_, h.taken, ?_, ?_, ?_, hk.sites⟩
  · intro site' hsite'
    rw [Progress.function_eq hsite' hsite]
    exact ⟨scope, hscope, hof'⟩
  · intro n' hn' c' hc'
    have hne : n ≠ n' := fun heq => hn' (heq ▸ h.taken n hcursor)
    rw [View.getElem?_setCursor_of_ne hne] at hc'
    exact h.fresh n' hn' c' hc'
  · intro n' hn'
    rw [View.size_setCursor]
    exact h.used n' hn'
  · intro hnone
    exact absurd (hcursor.symm.trans hnone) (Option.some_ne_none n)
  · intro n' hn' c' hc' site' hsite'
    have heq : n = n' := Option.some.inj (hcursor.symm.trans hn')
    subst heq
    have hself := View.getElem?_setCursor_self
      (v := { v with module := { v.module with graph := added.2 } }) hn
      (c.locate (some added.1))
    cases hself.symm.trans hc'
    have hmarked := Progress.marked_eq hsite'
    refine ⟨?_, ?_⟩
    · intro hempty
      rw [hmarked] at hempty
      exact absurd hempty (List.append_ne_nil_of_right_ne_nil _ (List.cons_ne_nil _ _))
    · intro line' hline'
      rw [hmarked, List.getLast?_concat] at hline'
      cases hline'
      rw [Progress.function_eq hsite' hsite]
      exact ⟨added.1, scope, rfl, hnode, hof'⟩

theorem markSubprogram (h : TypedLines p v) {function : FunctionId} {f : Function} {name : String}
    {line : Nat} (hf : v.module.function? function = some f) (hfresh : function ∉ p.begun)
    (hstep : v.step (.markSubprogram function name line) = some v') :
    TypedLines { p with
      begun := p.begun ++ [function], before := p.lastLine?, marked := [], cursor := none } v' := by
  obtain ⟨r, hr, -⟩ := h.recorder
  have hgrows := r.grows_addSubprogram name f.name line v.module.graph
  have hactive := congrArg TypedRecorder.active
    (r.recorder_addSubprogram name f.name line v.module.graph)
  obtain ⟨type, locals, hnode⟩ := r.node?_addSubprogram name f.name line v.module.graph
  rw [View.step_markSubprogram_typed hr hf, Option.some.injEq] at hstep
  generalize r.addSubprogram name f.name line v.module.graph = added
    at hgrows hactive hnode hstep
  subst hstep
  have hkeeps := (KeepsLines.graph_of_extends hgrows.nodes).trans
    (KeepsLines.attachToFunction hfresh { v.module with graph := added.2.2 }
      TypedRecorder.subprogramKey added.1)
  have hk := h.of_keeps hkeeps (hgrows.indexed h.indexed)
  refine ⟨hk.indexed, ⟨added.2.1, rfl, ?_⟩, hk.fresh, ?_, hk.used, fun _ => rfl, ?_, ?_⟩
  · intro site hsite
    obtain ⟨f', hf', rfl⟩ := Option.map_eq_some_iff.mp hsite
    rw [List.getLast?_concat] at hf'
    cases hf'
    refine ⟨added.1, hactive, f.attach TypedRecorder.subprogramKey added.1, _, ?_, ?_, hnode, rfl,
      rfl⟩
    · rw [Module.function?_attachToFunction, if_pos rfl]
      exact congrArg _ hf
    · rw [Function.attach, Keyed.find?_insert, if_pos rfl]
  · intro n' hn'
    cases hn'
  · intro n' hn'
    cases hn'
  · apply hk.sites.imp
    rintro site id ⟨hsite, hlocated⟩
    exact ⟨List.mem_append_left _ hsite, hlocated⟩

theorem finalize (h : TypedLines p v) (hstep : v.step .finalize = some v') : TypedLines p v' := by
  obtain ⟨r, hr, -⟩ := h.recorder
  have hgrows := r.grows_finalGraph v.module.graph
  rw [View.step_finalize_typed hr] at hstep
  generalize r.finalGraph v.module.graph = graph at hgrows hstep
  cases hstep
  exact h.of_keeps (.graph_of_extends hgrows.nodes) (hgrows.indexed h.indexed)

theorem step (h : TypedLines p v) (ho : o.Describes v) {s : Step} (hs : o.after? s = some o')
    (hp : p.after? o' s = some p') (hstep : v.step s = some v') : TypedLines p' v' := by
  cases s with
  | addFunction name signature =>
      cases hp
      exact h.addFunction hstep
  | appendBlock function label =>
      simp only [Outline.after?, Option.ite_none_right_eq_some] at hs
      cases hp
      exact h.appendBlock (ho.lt_size hs.1) hstep
  | openCursor block =>
      cases hp
      exact h.openCursor hstep
  | moveTo n block =>
      simp only [Outline.after?, Option.ite_none_right_eq_some] at hs
      obtain ⟨c, hn⟩ := ho.exists_cursor_of_lt hs.1
      obtain ⟨h', hcursor⟩ := h.use hp hn
      exact h'.moveTo hcursor hn hstep
  | emit n operation =>
      simp only [Outline.after?, Option.ite_none_right_eq_some] at hs
      obtain ⟨c, hn, hblock⟩ := ho.exists_cursor hs.1.1
      obtain ⟨p₁, huse, site, hsite, rfl⟩ := Progress.after?_emit hp
      obtain ⟨h', hcursor⟩ := h.use huse hn
      exact h'.emit hcursor hn hblock hsite hstep
  | markSubprogram function name line =>
      simp only [Outline.after?, Option.ite_none_right_eq_some] at hs
      obtain ⟨f, hf, -⟩ := ho.exists_function hs.1
      obtain ⟨hfresh, rfl⟩ := Progress.after?_markSubprogram hp
      exact h.markSubprogram hf hfresh hstep
  | markLocation n line =>
      simp only [Outline.after?, Option.ite_none_right_eq_some] at hs
      obtain ⟨c, hn, -⟩ := ho.exists_cursor hs.1.2
      obtain ⟨p₁, huse, ⟨site, hsite⟩, rfl⟩ := Progress.after?_markLocation hp
      obtain ⟨h', hcursor⟩ := h.use huse hn
      exact h'.markLocation hcursor hn hsite hstep
  | finalize =>
      cases hp
      exact h.finalize hstep

theorem start (name : String) {graph : Graph} (hindexed : graph.Indexed) (r : TypedRecorder) :
    TypedLines {} { module := { name, graph }, recorder := .typed r } := by
  refine ⟨hindexed, ⟨r, rfl, ?_⟩, ?_, ?_, ?_, fun _ => rfl, ?_, .nil⟩
  · intro site hsite
    cases hsite
  · intro n _ c hc
    cases Array.getElem?_empty.symm.trans hc
  · intro n hn
    cases hn
  · intro n hn
    cases hn
  · intro n hn
    cases hn

end TypedLines

/-- Beside a typed recorder a script runs to its end, and everything is located. -/
theorem exists_typed_lines {script : List Step} {sites : List Site}
    (hsites : sites? script = some sites) (settings : Settings) (source : SourceFile)
    (name : String) :
    ∃ v p, (View.typed settings source name).run script = some v ∧ TypedLines p v ∧
      p.sites = sites := by
  obtain ⟨⟨o, p⟩, hfold, rfl⟩ := Option.map_eq_some_iff.mp hsites
  have hindexed := (TypedRecorder.grows_create settings source ∅).indexed Graph.indexed_empty
  rw [View.typed]
  generalize TypedRecorder.create settings source ∅ = created at hindexed ⊢
  obtain ⟨v, hv, -, h⟩ := View.run_progress
    (fun ho _ h hs hp hstep => TypedLines.step h ho hs hp hstep)
    (Outline.Describes.start name created.2 (.typed created.1))
    (TypedLines.start name hindexed created.1) hfold
  exact ⟨v, p, hv, h, rfl⟩

end Script

end DebugMetadata

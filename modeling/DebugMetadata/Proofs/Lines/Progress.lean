import DebugMetadata.Proofs.Script.Outline

/-!
# Functions one after another

A script may emit its functions one after another: it registers a function and
then builds the body through one cursor that it has not used before, in blocks of
that function only.  For each instruction that it emits so, what decides on the
location is known: the function, the lines marked in it so far and the line that
was marked last before it was registered.
-/

namespace DebugMetadata.Script

/-- Where in a run an instruction is emitted. -/
structure Site where
  function : FunctionId
  /-- The line that was marked last before the function was registered. -/
  before : Option Nat
  /-- The lines marked in the function so far, in order. -/
  marked : List Nat
  deriving DecidableEq, Repr

/-- Whether all lines marked in the function so far repeat the line that was marked
last before the function was registered. -/
def Site.IsSwallowed (site : Site) : Prop :=
  site.marked ≠ [] ∧ ∀ line ∈ site.marked, site.before = some line

/-- The site after one more line is marked in its function. -/
def Site.mark (site : Site) (line : Nat) : Site := { site with marked := site.marked ++ [line] }

/-- The line that was marked last before an instruction. -/
def Site.lastLine? (site : Site) : Option Nat := site.marked.getLast?.or site.before

/-- A line that repeats the last one is swallowed with those before it. -/
theorem Site.isSwallowed_mark_of_repeated {site : Site} {line : Nat}
    (h : site.lastLine? = some line) :
    (site.mark line).IsSwallowed ↔ site.marked = [] ∨ site.IsSwallowed := by
  constructor
  · rintro ⟨-, hall⟩
    by_cases hmarked : site.marked = []
    · exact .inl hmarked
    · exact .inr ⟨hmarked, fun l hl => hall l (List.mem_append_left _ hl)⟩
  · intro hor
    refine ⟨List.append_ne_nil_of_right_ne_nil _ (List.cons_ne_nil _ _), ?_⟩
    intro l hl
    rcases List.mem_append.mp hl with hl | hl
    · rcases hor with hmarked | ⟨-, hall⟩
      · rw [hmarked] at hl
        cases hl
      · exact hall l hl
    · rw [List.mem_singleton.mp hl]
      rcases hor with hmarked | ⟨hne, hall⟩
      · rw [lastLine?, hmarked] at h
        exact h
      · have hlast := List.getLast?_eq_some_getLast hne
        rw [lastLine?, hlast, Option.some_or, Option.some.injEq] at h
        rw [← h]
        exact hall _ (List.getLast_mem hne)

theorem Site.not_isSwallowed_mark_of_new {site : Site} {line : Nat}
    (h : site.lastLine? ≠ some line) : ¬ (site.mark line).IsSwallowed := by
  rintro ⟨-, hall⟩
  have hline : site.before = some line :=
    hall line (List.mem_append_right _ List.mem_cons_self)
  apply h
  cases hlast : site.marked.getLast? with
  | none => rw [lastLine?, hlast, Option.none_or, hline]
  | some last =>
      have hbefore : site.before = some last :=
        hall last (List.mem_append_left _ (List.mem_of_getLast? hlast))
      rw [lastLine?, hlast, Option.some_or, ← hbefore, hline]

/-- How far a script has come that emits functions one after another. -/
structure Progress where
  /-- The functions registered so far.  The last one is being emitted. -/
  begun : List FunctionId := []
  /-- The line that was marked last before that function was registered. -/
  before : Option Nat := none
  /-- The lines marked in that function so far. -/
  marked : List Nat := []
  /-- The cursor of that function, once it is used. -/
  cursor : Option Nat := none
  /-- The cursors used so far. -/
  used : List Nat := []
  /-- The instructions emitted so far. -/
  sites : List Site := []
  deriving DecidableEq, Repr

namespace Progress

/-- Where the next instruction is emitted. -/
def site? (p : Progress) : Option Site :=
  p.begun.getLast?.map fun function => ⟨function, p.before, p.marked⟩

/-- The line that was marked last. -/
def lastLine? (p : Progress) : Option Nat := p.marked.getLast?.or p.before

/-- Uses a cursor, if it is that of the function being emitted or has not been used
yet, and if it stands in a block of the function. -/
def use? (p : Progress) (o : Outline) (cursor : Nat) : Option Progress :=
  if (p.cursor = some cursor ∨ p.cursor = none ∧ cursor ∉ p.used) ∧
      (o.place? cursor).isSome ∧ o.place? cursor = p.begun.getLast? then
    some { p with cursor := some cursor, used := cursor :: p.used }
  else none

/-- The progress after a step, if the step goes on with the function being emitted
or begins another one.  The outline is that after the step. -/
def after? (p : Progress) (o : Outline) : Step → Option Progress
  | .markSubprogram function _ _ =>
    if function ∈ p.begun then none
    else
      some { p with
        begun := p.begun ++ [function]
        before := p.lastLine?
        marked := []
        cursor := none }
  | .moveTo cursor _ => p.use? o cursor
  | .emit cursor _ => do
    let p ← p.use? o cursor
    let site ← p.site?
    return { p with sites := p.sites ++ [site] }
  | .markLocation cursor line => do
    let p ← p.use? o cursor
    return { p with marked := p.marked ++ [line] }
  | _ => some p

end Progress

/-- The outline and the progress after a step. -/
def advance? (state : Outline × Progress) (s : Step) : Option (Outline × Progress) := do
  let o ← state.1.after? s
  let p ← state.2.after? o s
  return (o, p)

/-- The instructions of a script that emits functions one after another. -/
def sites? (script : List Step) : Option (List Site) :=
  (script.foldlM advance? ({}, {})).map fun state => state.2.sites

variable {o o' : Outline} {p p' : Progress} {n : Nat} {s : Step}

theorem Progress.function_mem_begun {site : Site} (h : site ∈ p.site?) :
    site.function ∈ p.begun := by
  obtain ⟨f, hf, rfl⟩ := Option.map_eq_some_iff.mp h
  exact List.mem_of_getLast? hf

/-- Progress that has begun the same functions is at the same one. -/
theorem Progress.function_eq {site site' : Site} (h : site ∈ p.site?) {marked : List Nat}
    (h' : site' ∈ Progress.site? { p with marked }) : site.function = site'.function := by
  obtain ⟨f, hf, rfl⟩ := Option.map_eq_some_iff.mp h
  obtain ⟨f', hf', rfl⟩ := Option.map_eq_some_iff.mp h'
  exact Option.some.inj (hf.symm.trans hf')

theorem Progress.marked_eq {site : Site} (h : site ∈ p.site?) : site.marked = p.marked := by
  obtain ⟨f, -, rfl⟩ := Option.map_eq_some_iff.mp h
  rfl

theorem Progress.lastLine?_eq {site : Site} (h : site ∈ p.site?) :
    site.lastLine? = p.lastLine? := by
  obtain ⟨f, -, rfl⟩ := Option.map_eq_some_iff.mp h
  rfl

theorem Progress.site?_mark {site : Site} (h : site ∈ p.site?) (line : Nat) :
    Progress.site? { p with marked := p.marked ++ [line] } = some (site.mark line) := by
  obtain ⟨f, hf, rfl⟩ := Option.map_eq_some_iff.mp h
  rw [site?, hf]
  rfl

theorem Progress.lastLine?_mark (p : Progress) (line : Nat) :
    Progress.lastLine? { p with marked := p.marked ++ [line] } = some line := by
  rw [lastLine?, List.getLast?_concat, Option.some_or]

theorem Progress.use?_eq_some (h : p.use? o n = some p') :
    p' = { p with cursor := some n, used := n :: p.used } ∧
      (p.cursor = some n ∨ p.cursor = none ∧ n ∉ p.used) ∧
      ∃ f, p.begun.getLast? = some f ∧ o.place? n = some f := by
  simp only [use?, Option.ite_none_right_eq_some, Option.some.injEq] at h
  obtain ⟨⟨hcursor, hplace, hfunction⟩, rfl⟩ := h
  obtain ⟨f, hf⟩ := Option.isSome_iff_exists.mp hplace
  exact ⟨rfl, hcursor, f, hfunction ▸ hf, hf⟩

theorem Progress.place?_of_use? (h : p.use? o n = some p') {site : Site} (hsite : site ∈ p'.site?) :
    o.place? n = some site.function := by
  obtain ⟨rfl, -, f, hf, hplace⟩ := use?_eq_some h
  obtain ⟨f', hf', rfl⟩ := Option.map_eq_some_iff.mp hsite
  cases hf.symm.trans hf'
  exact hplace

namespace Progress

theorem after?_emit {operation : Operation} (h : p.after? o (.emit n operation) = some p') :
    ∃ p₁, p.use? o n = some p₁ ∧ ∃ site ∈ p₁.site?, p' = { p₁ with sites := p₁.sites ++ [site] } := by
  simp only [after?, Option.bind_eq_bind, Option.bind_eq_some_iff, Option.pure_def,
    Option.some.injEq] at h
  obtain ⟨p₁, huse, site, hsite, rfl⟩ := h
  exact ⟨p₁, huse, site, hsite, rfl⟩

theorem after?_markSubprogram {function : FunctionId} {name : String} {line : Nat}
    (h : p.after? o (.markSubprogram function name line) = some p') :
    function ∉ p.begun ∧ p' = { p with
      begun := p.begun ++ [function], before := p.lastLine?, marked := [], cursor := none } := by
  simp only [after?, Option.ite_none_left_eq_some, Option.some.injEq] at h
  exact ⟨h.1, h.2.symm⟩

theorem after?_markLocation {line : Nat} (h : p.after? o (.markLocation n line) = some p') :
    ∃ p₁, p.use? o n = some p₁ ∧ (∃ site, site ∈ p₁.site?) ∧
      p' = { p₁ with marked := p₁.marked ++ [line] } := by
  simp only [after?, Option.bind_eq_bind, Option.bind_eq_some_iff, Option.pure_def,
    Option.some.injEq] at h
  obtain ⟨p₁, huse, rfl⟩ := h
  obtain ⟨hp₁, -, f, hf, -⟩ := use?_eq_some huse
  refine ⟨p₁, huse, ⟨⟨f, p₁.before, p₁.marked⟩, ?_⟩, rfl⟩
  rw [site?, hp₁, hf]
  rfl

end Progress

theorem advance?_eq_some (h : advance? (o, p) s = some (o', p')) :
    o.after? s = some o' ∧ p.after? o' s = some p' := by
  simp only [advance?, Option.bind_eq_bind, Option.bind_eq_some_iff, Option.pure_def,
    Option.some.injEq, Prod.mk.injEq] at h
  obtain ⟨o₁, ho, p₁, hp, rfl, rfl⟩ := h
  exact ⟨ho, hp⟩

/-- What every step keeps of the progress and the view holds at the end. -/
theorem View.run_progress {I : Progress → View → Prop}
    (hstep : ∀ {o o' : Outline} {p p' v v' s}, o.Describes v → o'.Describes v' → I p v →
      o.after? s = some o' → p.after? o' s = some p' → v.step s = some v' → I p' v') :
    ∀ {script : List Step} {o o' : Outline} {p p' : Progress} {v : View}, o.Describes v → I p v →
      script.foldlM advance? (o, p) = some (o', p') →
      ∃ v', v.run script = some v' ∧ o'.Describes v' ∧ I p' v' := by
  intro script
  induction script with
  | nil =>
      intro o o' p p' v ho h hfold
      cases hfold
      exact ⟨v, rfl, ho, h⟩
  | cons s script ih =>
      intro o o' p p' v ho h hfold
      rw [List.foldlM_cons] at hfold
      obtain ⟨⟨o₁, p₁⟩, hs, hrest⟩ := Option.bind_eq_some_iff.mp hfold
      obtain ⟨ho₁, hp₁⟩ := advance?_eq_some hs
      obtain ⟨v₁, hv₁, hdescribes⟩ := ho.step ho₁
      rw [View.run_cons, hv₁]
      exact ih hdescribes (hstep ho hdescribes h ho₁ hp₁ hv₁) hrest

end DebugMetadata.Script

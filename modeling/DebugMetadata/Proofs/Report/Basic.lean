import DebugMetadata.Proofs.Script.Outline
import Mathlib.Data.List.Basic

/-!
# What a script reports

A record of debug info is the compile unit with its subprograms, apart from any
form of metadata.  The record that a script reports is read off the script and
the settings alone.
-/

namespace DebugMetadata

/-- What is recorded of a subprogram. -/
structure SubprogramRecord where
  name : String
  linkageName : String
  line : Int
  scopeLine : Int
  optimized : Bool
  source : SourceFile
  deriving DecidableEq, Repr

/-- What is recorded of a compile unit. -/
structure UnitRecord where
  source : SourceFile
  language : Language
  producer : String
  optimized : Bool
  /-- The subprograms in the order of their registration. -/
  subprograms : List SubprogramRecord
  deriving DecidableEq, Repr

namespace Script

/-! ## Registrations -/

/-- A registration of a function as a subprogram. -/
structure Mark where
  name : String
  linkageName : String
  line : Nat
  deriving DecidableEq, Repr

/-- The names of the functions after a step.  A name that is taken declares no
function. -/
def Step.namesAfter (names : List String) : Step → List String
  | .addFunction name _ => if name ∈ names then names else names ++ [name]
  | _ => names

/-- The names of the functions in the order of their declaration. -/
def functionNames (script : List Step) : List String := script.foldl Step.namesAfter []

/-- The registration that a step makes, where the functions have the given
names. -/
def Step.mark? (names : List String) : Step → Option Mark
  | .markSubprogram function name line => some ⟨name, names.getD function.index "", line⟩
  | _ => none

/-- The registrations that a script makes, in order. -/
def marks (script : List Step) : List Mark :=
  script.filterMap (Step.mark? (functionNames script))

/-- The subprogram that a registration reports. -/
def Mark.record (settings : Settings) (source : SourceFile) (mark : Mark) : SubprogramRecord :=
  { name := mark.name
    linkageName := mark.linkageName
    line := mark.line
    scopeLine := mark.line
    optimized := settings.optimized
    source }

/-- The debug info that a script reports. -/
def reported (settings : Settings) (source : SourceFile) (script : List Step) : UnitRecord :=
  { source
    language := settings.language
    producer := settings.producer
    optimized := settings.optimized
    subprograms := (marks script).map (Mark.record settings source) }

/-! ## One more step -/

/-- The names are those of the outline, and every function that is registered has
one. -/
structure Outline.Names (o : Outline) (script : List Step) : Prop where
  names : functionNames script = o.names
  marked : ∀ function name line, .markSubprogram function name line ∈ script →
    function.index < o.names.length

variable {o o' : Outline} {script : List Step} {s : Step}

theorem Outline.names_after (hs : o.after? s = some o') : o'.names = s.namesAfter o.names := by
  cases s with
  | addFunction name signature =>
      cases hs
      rw [Step.namesAfter]
      by_cases hname : name ∈ o.names
      · rw [if_pos hname, if_pos hname]
      · rw [if_neg hname, if_neg hname]
  | appendBlock function label =>
      simp only [after?, Option.ite_none_right_eq_some, Option.some.injEq] at hs
      obtain ⟨-, rfl⟩ := hs
      rfl
  | openCursor block =>
      cases hs
      rfl
  | moveTo cursor block =>
      simp only [after?, Option.ite_none_right_eq_some, Option.some.injEq] at hs
      obtain ⟨-, rfl⟩ := hs
      rfl
  | emit cursor operation =>
      simp only [after?, Option.ite_none_right_eq_some, Option.some.injEq] at hs
      obtain ⟨-, rfl⟩ := hs
      rfl
  | markSubprogram function name line =>
      simp only [after?, Option.ite_none_right_eq_some, Option.some.injEq] at hs
      obtain ⟨-, rfl⟩ := hs
      rfl
  | markLocation cursor line =>
      simp only [after?, Option.ite_none_right_eq_some, Option.some.injEq] at hs
      obtain ⟨-, rfl⟩ := hs
      rfl
  | finalize =>
      cases hs
      rfl

theorem Step.prefix_namesAfter (names : List String) (s : Step) :
    names <+: s.namesAfter names := by
  cases s with
  | addFunction name signature =>
      by_cases hname : name ∈ names
      · simp only [namesAfter, if_pos hname]
        exact List.prefix_refl names
      · simp only [namesAfter, if_neg hname]
        exact List.prefix_append names [name]
  | _ => exact List.prefix_refl _

namespace Outline.Names

theorem prefix_after (hs : o.after? s = some o') : o.names <+: o'.names := by
  rw [names_after hs]
  exact s.prefix_namesAfter o.names

theorem start : Names {} [] := ⟨rfl, fun _ _ _ h => by cases h⟩

theorem concat (h : o.Names script) (hs : o.after? s = some o') : o'.Names (script ++ [s]) := by
  have hprefix := prefix_after hs
  refine ⟨?_, ?_⟩
  · rw [names_after hs, ← h.names, functionNames, List.foldl_append]
    rfl
  · intro function name line hmem
    rcases List.mem_append.mp hmem with hmem | hmem
    · exact Nat.lt_of_lt_of_le (h.marked function name line hmem) hprefix.length_le
    · rw [← List.mem_singleton.mp hmem] at hs
      simp only [after?, Option.ite_none_right_eq_some] at hs
      exact Nat.lt_of_lt_of_le hs.1 hprefix.length_le

theorem marks_concat (h : o.Names script) (hs : o.after? s = some o') :
    marks (script ++ [s]) = marks script ++ (s.mark? o'.names).toList := by
  have hnames := (h.concat hs).names
  have hold : script.filterMap (Step.mark? o'.names) = script.filterMap (Step.mark? o.names) := by
    apply List.filterMap_congr
    intro s' hs'
    cases s' with
    | markSubprogram function name line =>
        have hlt := h.marked function name line hs'
        obtain ⟨rest, hrest⟩ := prefix_after hs
        rw [Step.mark?, Step.mark?, ← hrest, List.getD_eq_getElem?_getD,
          List.getD_eq_getElem?_getD, List.getElem?_append_left hlt]
    | _ => rfl
  rw [marks, hnames, List.filterMap_append, hold, marks, h.names]
  cases hmark : s.mark? o'.names <;> simp [hmark]

end Outline.Names

/-! ## Runs -/

/-- What is true of the registrations and commits so far after every call of the
recorder, and does not look at code, is true of them all at the end. -/
theorem View.run_report {P : List Mark → Nat → View → Prop} {v : View}
    (hscript : WellFormed script) (ho : Outline.Describes {} v) (hstart : P [] 0 v)
    (hcode : ∀ marks commits v v', P marks commits v → v'.module.graph = v.module.graph →
      v'.recorder = v.recorder → P marks commits v')
    (hmark : ∀ marks commits v v' function f name line, P marks commits v →
      v.module.function? function = some f →
      v.step (.markSubprogram function name line) = some v' →
      P (marks ++ [⟨name, f.name, line⟩]) commits v')
    (hline : ∀ marks commits v v' n c line, P marks commits v → v.recorder.IsReady →
      v.cursors[n]? = some c → c.block.index < v.module.blocks.size →
      v.step (.markLocation n line) = some v' → P marks commits v')
    (hfinal : ∀ marks commits v v', P marks commits v → v.step .finalize = some v' →
      P marks (commits + 1) v') :
    ∃ v', v.run script = some v' ∧ P (marks script) (script.count .finalize) v' := by
  obtain ⟨o, hfold⟩ := Option.isSome_iff_exists.mp hscript
  have hrun := View.run_invariant
    (I := fun script o v => o.Names script ∧ P (marks script) (script.count .finalize) v)
    ?_ ho ⟨Outline.Names.start, hstart⟩ hfold
  · obtain ⟨v', hv', -, -, h⟩ := hrun
    exact ⟨v', hv', h⟩
  · intro script o o' v v' s ho ⟨hnames, h⟩ hs hstep
    refine ⟨hnames.concat hs, ?_⟩
    rw [hnames.marks_concat hs, List.count_append]
    cases s with
    | markSubprogram function name line =>
        simp only [Outline.after?, Option.ite_none_right_eq_some, Option.some.injEq] at hs
        obtain ⟨hlt, rfl⟩ := hs
        obtain ⟨f, hf, hname⟩ := ho.exists_function hlt
        have hnew := hmark _ _ _ _ function f name line h hf hstep
        simp only [Step.mark?, Option.toList_some, List.getD_eq_getElem?_getD, hname,
          Option.getD_some]
        exact hnew
    | markLocation n line =>
        simp only [Outline.after?, Option.ite_none_right_eq_some] at hs
        obtain ⟨c, hn, hblock⟩ := ho.exists_cursor hs.1.2
        simp only [Step.mark?, Option.toList_none, List.append_nil]
        exact hline _ _ _ _ n c line h (ho.ready hs.1.1) hn hblock hstep
    | finalize =>
        simp only [Step.mark?, Option.toList_none, List.append_nil]
        exact hfinal _ _ _ _ h hstep
    | _ =>
        simp only [Step.mark?, Option.toList_none, List.append_nil]
        obtain ⟨hgraph, hrecorder⟩ := View.graph_and_recorder_of_isCode rfl hstep
        exact hcode _ _ _ _ h hgraph hrecorder

end Script

end DebugMetadata

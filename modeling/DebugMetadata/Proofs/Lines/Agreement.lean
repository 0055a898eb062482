import DebugMetadata.Proofs.Lines.TaggedRun
import DebugMetadata.Proofs.Lines.TypedRun

/-!
# The line tables agree

A script that emits functions one after another gives its instructions the same
lines beside either recorder, but for those that the tagged one passes over: lines
at the start of a function that repeat the last line of what came before it.
-/

namespace DebugMetadata.Script

private theorem exists_getElem?_of_forall₂ {α β : Type} {R : α → β → Prop} {xs : List α}
    {ys : List β} (h : List.Forall₂ R xs ys) {n : Nat} {a : α} (ha : xs[n]? = some a) :
    ∃ b, ys[n]? = some b ∧ R a b := by
  obtain ⟨hlt, rfl⟩ := List.getElem?_eq_some_iff.mp ha
  have hlt' : n < ys.length := h.length_eq ▸ hlt
  exact ⟨ys[n], List.getElem?_eq_getElem hlt', h.get hlt hlt'⟩

/-- How the location of an instruction beside a typed recorder goes with the one
that markers give to it beside a tagged recorder. -/
structure LocatesAlike (typed tagged : Module) (site : Site)
    (location marked : Option NodeId) : Prop where
  /-- Before any line of its function it has no location. -/
  unmarked : site.marked = [] → location = none ∧ marked = none
  /-- While the lines of its function repeat the last one from before it, no marker
  gives it that line. -/
  swallowed : site.IsSwallowed → ∃ line, site.before = some line ∧
    TypedRecorder.HasLine typed location line site.function ∧ marked = none
  /-- Otherwise both give it the line that was marked last in its function. -/
  located : ∀ line, site.marked.getLast? = some line → ¬ site.IsSwallowed →
    TypedRecorder.HasLine typed location line site.function ∧
      TaggedRecorder.HasLine tagged.graph marked line site.function

theorem LocatesAlike.of_locatedAt {typed tagged : Module} {site : Site}
    {location marked : Option NodeId} (h₁ : TypedRecorder.LocatedAt typed site location)
    (h₂ : TaggedRecorder.LocatedAt tagged.graph site marked) :
    LocatesAlike typed tagged site location marked := by
  refine ⟨fun hempty => ⟨h₁.unmarked hempty, h₂.unmarked hempty⟩, ?_, ?_⟩
  · intro hswallowed
    obtain ⟨hne, hall⟩ := hswallowed
    have hlast := List.getLast?_eq_some_getLast hne
    exact ⟨_, hall _ (List.getLast_mem hne), h₁.marked _ hlast, h₂.swallowed ⟨hne, hall⟩⟩
  · intro line hline hnot
    exact ⟨h₁.marked line hline, h₂.marked line hline hnot⟩

/-- A script that emits functions one after another gets the same line table beside
either recorder, but for the lines that a tagged one passes over. -/
theorem line_tables_agree {script : List Step} {sites : List Site}
    {workingDirectory path : List UInt8} {source : SourceFile} (settings : Settings)
    (name : String) (hsites : sites? script = some sites)
    (hpath : SourceFile.ofPath workingDirectory path = .ok source) :
    ∃ typed tagged : Drive,
      run script (.fixed .modern) settings workingDirectory path name = .ok typed ∧
      run script (.fixed .legacy) settings workingDirectory path name = .ok tagged ∧
      typed.emitted.size = sites.length ∧ tagged.emitted.size = sites.length ∧
      ∀ (n : Nat) (site : Site), sites[n]? = some site → ∃ id₁ id₂ i,
        typed.emitted[n]? = some id₁ ∧ tagged.emitted[n]? = some id₂ ∧
        typed.module.instruction? id₁ = some i ∧
        LocatesAlike typed.module tagged.module site i.location
          (tagged.module.markedLocation? id₂) := by
  obtain ⟨v₁, p₁, hrun₁, h₁, rfl⟩ := exists_typed_lines hsites settings source name
  obtain ⟨v₂, p₂, hrun₂, h₂, hp⟩ := exists_tagged_lines hsites settings source name
  obtain ⟨typed, htyped, hshows₁⟩ := run_typed hpath hrun₁
  obtain ⟨tagged, htagged, hshows₂⟩ := run_tagged hpath hrun₂
  have hsites₁ := h₁.sites
  have hsites₂ := h₂.sites
  rw [hp] at hsites₂
  rw [← hshows₁.emitted] at hsites₁
  rw [← hshows₂.emitted] at hsites₂
  have hmodule₁ : typed.module = v₁.module := hshows₁.module
  have hmodule₂ : tagged.module = v₂.module := hshows₂.module
  refine ⟨typed, tagged, htyped, htagged, hsites₁.length_eq.symm, hsites₂.length_eq.symm, ?_⟩
  intro n site hsite
  obtain ⟨id₁, hid₁, -, i, hi, hlocated₁⟩ := exists_getElem?_of_forall₂ hsites₁ hsite
  obtain ⟨id₂, hid₂, -, howner, hlocated₂⟩ := exists_getElem?_of_forall₂ hsites₂ hsite
  have hmarked : v₂.module.markedLocation? id₂ =
      v₂.module.lastLocation? site.function id₂.index := by
    rw [Module.markedLocation?, howner, Option.bind_some]
  rw [Array.getElem?_toList] at hid₁ hid₂
  rw [← hmarked] at hlocated₂
  rw [hmodule₁, hmodule₂]
  exact ⟨id₁, id₂, i, hid₁, hid₂, hi, LocatesAlike.of_locatedAt hlocated₁ hlocated₂⟩

/-- The sample script gets one line table, for a file in the root directory: the
call in its second function repeats the last line of the first. -/
theorem line_tables_agree_on_sample :
    sites? sample = some [⟨⟨0⟩, none, [2]⟩, ⟨⟨1⟩, some 2, [2]⟩, ⟨⟨1⟩, some 2, [2, 3]⟩] ∧
      SourceFile.ofPath [] [0x2F, 0x61] = .ok ⟨"/", "a"⟩ ∧
      ∃ typed tagged : Drive,
        run sample (.fixed .modern) {} [] [0x2F, 0x61] "m" = .ok typed ∧
        run sample (.fixed .legacy) {} [] [0x2F, 0x61] "m" = .ok tagged ∧
        typed.emitted.size = 3 ∧ tagged.emitted.size = 3 ∧
        ∀ (n : Nat) (site : Site),
          [⟨⟨0⟩, none, [2]⟩, ⟨⟨1⟩, some 2, [2]⟩, ⟨⟨1⟩, some 2, [2, 3]⟩][n]? = some site →
          ∃ id₁ id₂ i, typed.emitted[n]? = some id₁ ∧ tagged.emitted[n]? = some id₂ ∧
            typed.module.instruction? id₁ = some i ∧
            LocatesAlike typed.module tagged.module site i.location
              (tagged.module.markedLocation? id₂) := by
  have hsites : sites? sample =
      some [⟨⟨0⟩, none, [2]⟩, ⟨⟨1⟩, some 2, [2]⟩, ⟨⟨1⟩, some 2, [2, 3]⟩] := by decide
  have hpath : SourceFile.ofPath [] [0x2F, 0x61] = .ok ⟨"/", "a"⟩ := by decide
  exact ⟨hsites, hpath, line_tables_agree {} "m" hsites hpath⟩

end DebugMetadata.Script

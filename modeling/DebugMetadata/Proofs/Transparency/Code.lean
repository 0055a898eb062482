import DebugMetadata.Proofs.Transparency.Printing
import DebugMetadata.Proofs.Transparency.TaggedRun
import DebugMetadata.Proofs.Transparency.TypedRun

/-!
# Debug info keeps the code

A script is run on a new module without a recorder, beside a typed one and beside
a tagged one.  The three modules have the same code: a typed recorder adds
locations to it, a tagged one adds markers, and neither shows in what is printed
of the instructions that the script emitted.
-/

namespace DebugMetadata.Script

/-- What a run beside a typed recorder adds to a run without a recorder are
locations. -/
structure AddsLocations (off typed : Drive) : Prop where
  /-- Without locations the code is the same. -/
  code : typed.module.withoutLocations.code = off.module.code
  /-- The instructions have the handles that they have without a recorder. -/
  emitted : typed.emitted = off.emitted
  /-- The line of an instruction differs by its location alone. -/
  line : ∀ id ∈ typed.emitted, ∃ i, typed.module.instruction? id = some i ∧
    Assembly.line? typed.module id =
      (Assembly.line? off.module id).map (· ++ Assembly.locationText i.location)

/-- What a run beside a tagged recorder adds to a run without a recorder are
markers. -/
structure AddsMarkers (off tagged : Drive) : Prop where
  /-- What the script emitted is in the order of its emission. -/
  increasing : tagged.emitted.toList.Pairwise fun a b => a.index < b.index
  /-- What the script emitted exists and carries no attachment. -/
  emitted : ∀ id ∈ tagged.emitted, ∃ i, tagged.module.instruction? id = some i ∧
    i.attachments = ∅
  /-- All else are markers. -/
  markers : ∀ id ∉ tagged.emitted, ∀ i, tagged.module.instruction? id = some i →
    ∃ c line location, i = TaggedRecorder.markerAt c line location
  /-- Without the markers, and with new numbers for the instructions, the code is
  the same. -/
  code : (tagged.module.keep tagged.emitted.toList).code = off.module.code
  /-- The new numbers are those of the run without a recorder. -/
  renumbered : tagged.emitted.toList.map (rankIn tagged.emitted.toList) = off.emitted.toList
  /-- An instruction of the script has the same line. -/
  line : ∀ id ∈ tagged.emitted,
    Assembly.line? tagged.module id =
      Assembly.line? off.module (rankIn tagged.emitted.toList id)

theorem Located.addsLocations {d₀ d : Drive} {v₀ v : View} (h : Located v₀ v)
    (h₀ : d₀.Shows v₀) (h₁ : d.Shows v) : AddsLocations d₀ d := by
  have hm₀ : d₀.module = v₀.module := h₀.module
  have hm : d.module = v.module := h₁.module
  refine ⟨?_, ?_, ?_⟩
  · rw [hm₀, hm]
    exact h.code
  · rw [h₀.emitted, h₁.emitted, h.emitted]
  · rw [h₁.emitted, hm₀, hm]
    intro id hid
    obtain ⟨i, hi⟩ := Module.exists_instruction? (h.listed id hid)
    refine ⟨i, hi, ?_⟩
    rw [Assembly.line?_withoutLocations hi (h.plain id i hi), ← Assembly.line?_code, h.code,
      Assembly.line?_code]

theorem Marked.addsMarkers {d₀ d : Drive} {v₀ v : View} (h : Marked v₀ v)
    (h₀ : d₀.Shows v₀) (h₁ : d.Shows v) : AddsMarkers d₀ d := by
  have hm₀ : d₀.module = v₀.module := h₀.module
  have hm : d.module = v.module := h₁.module
  have hmem : ∀ {id}, id ∈ v.emitted ↔ id ∈ v.emitted.toList := Array.mem_toList_iff.symm
  have hsilent : ∀ id, id ∉ v.emitted.toList → Assembly.yieldsValue v.module id = false := by
    intro id hid
    rw [Assembly.yieldsValue, Module.resultType?]
    cases hi : v.module.instruction? id with
    | none => rfl
    | some i =>
        obtain ⟨c, line, location, rfl⟩ := h.markers id hid i hi
        rfl
  refine ⟨?_, ?_, ?_, ?_, ?_, ?_⟩
  · rw [h₁.emitted]
    exact h.increasing
  · rw [h₁.emitted, hm]
    intro id hid
    obtain ⟨i, hi⟩ := Module.exists_instruction? (h.closed.listed id (hmem.mp hid))
    exact ⟨i, hi, h.plain id (hmem.mp hid) i hi⟩
  · rw [h₁.emitted, hm]
    intro id hid i hi
    exact h.markers id (fun hlist => hid (hmem.mpr hlist)) i hi
  · rw [h₁.emitted, hm, hm₀]
    exact h.code
  · rw [h₁.emitted, h₀.emitted]
    exact h.emitted
  · rw [h₁.emitted, hm, hm₀]
    intro id hid
    rw [← Assembly.line?_keep h.closed hsilent (hmem.mp hid), ← Assembly.line?_code, h.code,
      Assembly.line?_code]

/-- Debug info never changes the code: whatever a driver does to a new module, it
gets the code that it gets without debug info, and each of its instructions is
printed alike. -/
theorem debug_info_keeps_code {script : List Step} {workingDirectory path : List UInt8}
    {source : SourceFile} (settings : Settings) (name : String) (hscript : WellFormed script)
    (hpath : SourceFile.ofPath workingDirectory path = .ok source) :
    ∃ off typed tagged : Drive,
      run script .off settings workingDirectory path name = .ok off ∧
      run script (.fixed .modern) settings workingDirectory path name = .ok typed ∧
      run script (.fixed .legacy) settings workingDirectory path name = .ok tagged ∧
      AddsLocations off typed ∧ AddsMarkers off tagged := by
  obtain ⟨v₀, v₁, hrun₀, hrun₁, hlocated⟩ := exists_located hscript settings source name
  obtain ⟨v₀', v₂, hrun₀', hrun₂, hmarked⟩ := exists_marked hscript settings source name
  have hsame : v₀' = v₀ := Option.some.inj (hrun₀'.symm.trans hrun₀)
  subst hsame
  obtain ⟨off, hoff, hshows₀⟩ := run_off settings workingDirectory path hrun₀
  obtain ⟨typed, htyped, hshows₁⟩ := run_typed hpath hrun₁
  obtain ⟨tagged, htagged, hshows₂⟩ := run_tagged hpath hrun₂
  exact ⟨off, typed, tagged, hoff, htyped, htagged, hlocated.addsLocations hshows₀ hshows₁,
    hmarked.addsMarkers hshows₀ hshows₂⟩

/-- The sample script keeps its code, for a file in the root directory. -/
theorem debug_info_keeps_code_of_sample :
    WellFormed sample ∧ SourceFile.ofPath [] [0x2F, 0x61] = .ok ⟨"/", "a"⟩ ∧
      ∃ off typed tagged : Drive,
        run sample .off {} [] [0x2F, 0x61] "m" = .ok off ∧
        run sample (.fixed .modern) {} [] [0x2F, 0x61] "m" = .ok typed ∧
        run sample (.fixed .legacy) {} [] [0x2F, 0x61] "m" = .ok tagged ∧
        AddsLocations off typed ∧ AddsMarkers off tagged := by
  have hscript : WellFormed sample := by decide
  have hpath : SourceFile.ofPath [] [0x2F, 0x61] = .ok ⟨"/", "a"⟩ := by decide
  exact ⟨hscript, hpath, debug_info_keeps_code {} "m" hscript hpath⟩

end DebugMetadata.Script

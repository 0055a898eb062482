import DebugMetadata.Proofs.Report.TaggedRun
import DebugMetadata.Proofs.Report.TypedRun

/-!
# The schemas agree

Beside either recorder a script leaves a module from which the debug info that the
script reports is read back, whatever else it does in between.
-/

namespace DebugMetadata.Script

/-- Both schemas record the debug info that a script reports, if it finalizes its
recorder once, be it before its last call. -/
theorem schemas_record_what_is_reported {script : List Step}
    {workingDirectory path : List UInt8} {source : SourceFile} (settings : Settings)
    (name : String) (hscript : WellFormed script) (honce : script.count .finalize = 1)
    (hpath : SourceFile.ofPath workingDirectory path = .ok source) :
    ∃ typed tagged : Drive,
      run script (.fixed .modern) settings workingDirectory path name = .ok typed ∧
      run script (.fixed .legacy) settings workingDirectory path name = .ok tagged ∧
      TypedRecorder.read? typed.module.graph = some (reported settings source script) ∧
      TaggedRecorder.read? tagged.module.graph = some (reported settings source script) := by
  obtain ⟨v₁, r₁, hrun₁, -, h₁⟩ := exists_typed_holds hscript settings source name
  obtain ⟨v₂, r₂, hrun₂, -, h₂⟩ := exists_tagged_holds hscript settings source name
  rw [honce] at h₁ h₂
  obtain ⟨typed, htyped, hshows₁⟩ := run_typed hpath hrun₁
  obtain ⟨tagged, htagged, hshows₂⟩ := run_tagged hpath hrun₂
  refine ⟨typed, tagged, htyped, htagged, ?_, ?_⟩
  · rw [Drive.module, hshows₁.module]
    exact h₁.read?
  · rw [Drive.module, hshows₂.module]
    exact h₂.read?

/-- The sample script is reported alike, for a file in the root directory. -/
theorem schemas_record_what_is_reported_by_sample :
    WellFormed sample ∧ sample.count .finalize = 1 ∧
      SourceFile.ofPath [] [0x2F, 0x61] = .ok ⟨"/", "a"⟩ ∧
      ∃ typed tagged : Drive,
        run sample (.fixed .modern) {} [] [0x2F, 0x61] "m" = .ok typed ∧
        run sample (.fixed .legacy) {} [] [0x2F, 0x61] "m" = .ok tagged ∧
        TypedRecorder.read? typed.module.graph = some (reported {} ⟨"/", "a"⟩ sample) ∧
        TaggedRecorder.read? tagged.module.graph = some (reported {} ⟨"/", "a"⟩ sample) := by
  have hscript : WellFormed sample := by decide
  have honce : sample.count .finalize = 1 := by decide
  have hpath : SourceFile.ofPath [] [0x2F, 0x61] = .ok ⟨"/", "a"⟩ := by decide
  exact ⟨hscript, honce, hpath, schemas_record_what_is_reported {} "m" hscript honce hpath⟩

/-- The sample script reports its two functions. -/
example : reported {} ⟨"/", "a"⟩ sample =
    ⟨⟨"/", "a"⟩, .c, "Ori Compiler", true,
      [⟨"helper", "helper", 2, 2, true, ⟨"/", "a"⟩⟩,
        ⟨"main", "main", 2, 2, true, ⟨"/", "a"⟩⟩]⟩ := by
  decide

end DebugMetadata.Script

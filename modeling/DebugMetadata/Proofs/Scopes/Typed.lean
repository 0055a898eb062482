import DebugMetadata.Proofs.Session.Continuity

/-!
# Typed recorders of a session

A typed recorder goes on under its number and keeps the subprograms it has recorded,
and no other recorder becomes a typed one.
-/

namespace DebugMetadata

def Recorder.isTyped : Recorder → Bool
  | .typed _ => true
  | _ => false

theorem Recorder.isTyped_iff {r : Recorder} : r.isTyped = true ↔ ∃ t, r = .typed t := by
  cases r with
  | typed t => exact iff_of_true rfl ⟨t, rfl⟩
  | off => exact iff_of_false Bool.false_ne_true (by rintro ⟨t, ht⟩; cases ht)
  | tagged t => exact iff_of_false Bool.false_ne_true (by rintro ⟨t, ht⟩; cases ht)

namespace TypedRecorder

/-- Later subprograms are written as the earlier ones. -/
theorem LeadsTo.subprogramNode_eq {t t' : TypedRecorder} (h : t.LeadsTo t') :
    t'.subprogramNode = t.subprogramNode := by
  funext name linkageName line type locals
  simp only [subprogramNode, h.optimized, h.file, h.unit]

theorem node?_addSubprogram (t : TypedRecorder) (name linkageName : String) (line : Nat)
    (g : Graph) : ∃ type locals,
      (t.addSubprogram name linkageName line g).2.2.node?
        (t.addSubprogram name linkageName line g).1 =
          some (.debug (t.subprogramNode name linkageName line type locals) true) := by
  obtain ⟨type, locals, hid, hgraph⟩ := t.addSubprogram_eq name linkageName line g
  refine ⟨type, locals, ?_⟩
  rw [hgraph, hid, Graph.node?_append, if_pos rfl]

end TypedRecorder

namespace Session

variable {s s' : Session} {n : Nat} {t : TypedRecorder} {command : Command} {answer : Answer}

/-- Whether the recorder of a number is a typed one. -/
def isTyped (s : Session) (n : Nat) : Bool := s.recorders[n]?.any (·.recorder.isTyped)

theorem isTyped_iff : s.isTyped n = true ↔ ∃ t, s.HasRecorder n (.typed t) := by
  rw [isTyped, Option.any_eq_true_iff_get]
  constructor
  · rintro ⟨hsome, htyped⟩
    obtain ⟨t, ht⟩ := Recorder.isTyped_iff.mp htyped
    exact ⟨t, _, (Option.some_get hsome).symm, ht⟩
  · rintro ⟨t, slot, hslot, ht⟩
    have hsome : (s.recorders[n]?).isSome := by rw [hslot]; rfl
    refine ⟨hsome, Recorder.isTyped_iff.mpr ⟨t, ?_⟩⟩
    rw [Option.get_of_eq_some hsome hslot]
    exact ht

/-- A typed recorder goes on under its number. -/
theorem Performs.exists_typed (h : s.Performs command answer s')
    (ht : s.HasRecorder n (.typed t)) :
    ∃ t', s'.HasRecorder n (.typed t') ∧ t.LeadsTo t' ∧
      (t'.active = t.active ∨ TellsSubprogram command n) := by
  obtain ⟨r', hr', hleads, hactive⟩ := h.exists_leadsTo ht
  cases hleads with
  | typed hleads => exact ⟨_, hr', hleads, hactive⟩

/-- Unless a command makes one, a recorder that is typed after it was typed before. -/
theorem Performs.isTyped_of_isTyped (h : s.Performs command answer s')
    (hn : n ≠ s.recorders.size) (htyped : s'.isTyped n = true) : s.isTyped n = true := by
  obtain ⟨t', ht'⟩ := isTyped_iff.mp htyped
  rcases h.leadsTo_cases ht' with ⟨r, hr, hleads, -⟩ | ⟨hnew, -⟩ | ⟨hnew, -⟩
  · cases hleads with
    | typed hleads => exact isTyped_iff.mpr ⟨_, hr⟩
  · exact absurd hnew hn
  · exact absurd hnew hn

end Session

end DebugMetadata

import DebugMetadata.Proofs.Recorder.Calls

/-!
# Modules without locations

What a typed recorder adds to the code of a module can be taken away: the
locations of instructions and the subprograms attached to functions.  Taking them
away goes along with every growth of the module.
-/

namespace DebugMetadata

namespace Keyed

variable {α : Type}

def erase (t : Keyed α) (key : String) : Keyed α :=
  ⟨t.entries.filter fun entry => entry.1 != key⟩

private theorem filter_alterEntries (key : String) (f : Option α → α)
    (entries : List (String × α)) :
    (alterEntries key f entries).filter (fun entry => entry.1 != key) =
      entries.filter fun entry => entry.1 != key := by
  induction entries with
  | nil => simp [alterEntries]
  | cons entry rest ih =>
      obtain ⟨k, a⟩ := entry
      by_cases hk : k = key
      · simp [alterEntries, hk]
      · simp [alterEntries, hk, ih]

theorem erase_insert (t : Keyed α) (key : String) (value : α) :
    (t.insert key value).erase key = t.erase key :=
  congrArg Keyed.mk (filter_alterEntries key _ t.entries)

end Keyed

/-- The function without the subprogram that a typed recorder attaches to it. -/
def Function.withoutSubprogram (f : Function) : Function :=
  { f with attachments := f.attachments.erase TypedRecorder.subprogramKey }

def Instruction.withoutLocation (i : Instruction) : Instruction := { i with location := none }

namespace Module

/-- The functions, blocks and instructions of a module, without its metadata
graph. -/
def code (m : Module) : Module := { m with graph := ∅ }

/-- The module without the locations of its instructions and the subprograms of
its functions. -/
def withoutLocations (m : Module) : Module :=
  { m with
    functions := m.functions.map Function.withoutSubprogram
    instructions := m.instructions.map Instruction.withoutLocation }

theorem withoutLocations_graph (m : Module) (graph : Graph) :
    { m with graph }.withoutLocations.code = m.withoutLocations.code := rfl

theorem withoutLocations_pushFunction (m : Module) (name : String) (signature : Signature) :
    (m.pushFunction name signature).withoutLocations =
      m.withoutLocations.pushFunction name signature := by
  simp only [withoutLocations, pushFunction, Array.map_push, Array.size_map]
  rfl

theorem withoutLocations_pushBlock (m : Module) (function : FunctionId) (label : String) :
    (m.pushBlock function label).withoutLocations =
      m.withoutLocations.pushBlock function label := by
  simp only [withoutLocations, pushBlock]
  congr 1
  exact map_modify _ _ fun _ => rfl

theorem withoutLocations_pushInstruction (m : Module) (i : Instruction) :
    (m.pushInstruction i).withoutLocations =
      m.withoutLocations.pushInstruction i.withoutLocation := by
  simp only [withoutLocations, pushInstruction, Array.map_push, Array.size_map]
  rfl

theorem withoutLocations_attachToFunction (m : Module) (id : FunctionId) (node : NodeId) :
    (m.attachToFunction id TypedRecorder.subprogramKey node).withoutLocations =
      m.withoutLocations := by
  simp only [withoutLocations, attachToFunction]
  congr 1
  apply map_modify_of_eq
  intro f
  rw [Function.withoutSubprogram, Function.attach, Keyed.erase_insert]
  rfl

end Module

end DebugMetadata

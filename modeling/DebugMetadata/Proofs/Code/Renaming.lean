import DebugMetadata.Code.Instruction

/-!
# Renaming

An operation names the instructions it uses by handle.  Renaming exchanges the
handles and nothing else, so it depends only on the names of what is used.
-/

namespace DebugMetadata

def Value.instr? : Value → Option InstrId
  | .const _ _ => none
  | .result instr => some instr

/-- A value with another name for the instruction it is the result of. -/
def Value.rename (f : InstrId → InstrId) : Value → Value
  | .const ty value => .const ty value
  | .result instr => .result (f instr)

namespace Operation

def uses (operation : Operation) : List InstrId := operation.values.filterMap Value.instr?

/-- An operation with other names for the instructions it uses. -/
def rename (f : InstrId → InstrId) : Operation → Operation
  | .call callee args => .call callee (args.map (Value.rename f))
  | .ret value => .ret (value.map (Value.rename f))

end Operation

/-- An instruction with other names for the instructions it uses. -/
def Instruction.rename (f : InstrId → InstrId) (i : Instruction) : Instruction :=
  { i with operation := i.operation.rename f }

/-! ## Composition -/

theorem Value.rename_rename (f g : InstrId → InstrId) (v : Value) :
    (v.rename f).rename g = v.rename (g ∘ f) := by
  cases v <;> rfl

theorem Operation.rename_rename (f g : InstrId → InstrId) (operation : Operation) :
    (operation.rename f).rename g = operation.rename (g ∘ f) := by
  cases operation with
  | call callee args => simp [rename, Value.rename_rename]
  | ret value => cases value <;> simp [rename, Value.rename_rename]

/-! ## Dependence on what is used -/

theorem Value.rename_congr {f g : InstrId → InstrId} {v : Value}
    (h : ∀ instr ∈ v.instr?, f instr = g instr) : v.rename f = v.rename g := by
  cases v with
  | const ty value => rfl
  | result instr => rw [rename, rename, h instr rfl]

theorem Operation.rename_congr {f g : InstrId → InstrId} {operation : Operation}
    (h : ∀ instr ∈ operation.uses, f instr = g instr) :
    operation.rename f = operation.rename g := by
  have hvalue : ∀ v ∈ operation.values, v.rename f = v.rename g := by
    intro v hv
    apply Value.rename_congr
    intro instr hinstr
    exact h instr (List.mem_filterMap.mpr ⟨v, hv, hinstr⟩)
  cases operation with
  | call callee args =>
      have hargs : args.map (Value.rename f) = args.map (Value.rename g) :=
        List.map_congr_left hvalue
      rw [rename, rename, hargs]
  | ret value =>
      cases value with
      | none => rfl
      | some v => simp [rename, hvalue v (by simp [values])]

theorem Value.rename_id {f : InstrId → InstrId} {v : Value}
    (h : ∀ instr ∈ v.instr?, f instr = instr) : v.rename f = v := by
  cases v with
  | const ty value => rfl
  | result instr => rw [rename, h instr rfl]

theorem Operation.rename_id (operation : Operation) : operation.rename id = operation := by
  have hvalue : Value.rename id = id := by
    funext v
    exact Value.rename_id fun _ _ => rfl
  cases operation with
  | call callee args => rw [rename, hvalue, List.map_id]
  | ret value => rw [rename, hvalue, Option.map_id, id]

theorem Operation.uses_rename (f : InstrId → InstrId) (operation : Operation) :
    (operation.rename f).uses = operation.uses.map f := by
  have hvalues : (operation.rename f).values = operation.values.map (Value.rename f) := by
    cases operation with
    | call callee args => rfl
    | ret value => cases value <;> rfl
  have hinstr : Value.instr? ∘ Value.rename f = fun v => v.instr?.map f := by
    funext v
    cases v <;> rfl
  rw [uses, uses, hvalues, List.filterMap_map, hinstr, List.map_filterMap]

end DebugMetadata

import DebugMetadata.Assembly.Module
import DebugMetadata.Proofs.Arenas.Consistency

/-!
# Modules that cannot be printed

To print a module the printer looks up functions, blocks and instructions.  In a module
whose blocks and instructions are in their places it meets every instruction, and it finds
everything unless the code itself or a tuple refers to a function or an instruction that
does not exist.
-/

namespace DebugMetadata

namespace Assembly

variable {m : Module} {n : Numbering} {id : InstrId}

/-! ## Instructions -/

/-- The types that the line of an operation shows can be found: that of its result and
those of the values it uses. -/
def IsTyped (m : Module) (operation : Operation) : Prop :=
  (m.operationType? operation).isSome ∧ ∀ v ∈ operation.values, (m.valueType? v).isSome

/-- An operation has a type unless it calls a function that does not exist. -/
theorem isSome_operationType?_iff {operation : Operation} :
    (m.operationType? operation).isSome ↔
      ∀ function args, operation = .call (.function function) args →
        (m.function? function).isSome := by
  cases operation with
  | call callee args =>
      cases callee with
      | function id =>
          rw [Module.operationType?, Option.isSome_map]
          constructor
          · intro h function args' hcall
            cases hcall
            exact h
          · exact fun h => h id args rfl
      | asm fragment =>
          refine iff_of_true rfl ?_
          intro function args' hcall
          cases hcall
  | ret value =>
      refine iff_of_true rfl ?_
      intro function args hcall
      cases hcall

theorem isSome_value?_iff {v : Value} : (value? m n v).isSome ↔ (m.valueType? v).isSome := by
  rw [value?, bind_pure_comp, Option.map_eq_map, Option.isSome_map]

theorem isSome_values?_iff {values : List Value} :
    (values.mapM (value? m n)).isSome ↔ ∀ v ∈ values, (m.valueType? v).isSome := by
  rw [isSome_mapM_iff]
  exact forall₂_congr fun v _ => isSome_value?_iff

/-- A callee can be named exactly if its call has a type. -/
theorem isSome_callee?_iff (callee : Callee) (args : List Value) :
    (callee? m callee).isSome ↔ (m.operationType? (.call callee args)).isSome := by
  cases callee with
  | function id => rw [callee?, Module.operationType?, Option.isSome_map, Option.isSome_map]
  | asm fragment => exact iff_of_true rfl rfl

theorem isSome_operation?_iff {operation : Operation} :
    (operation? m n id operation).isSome ↔ IsTyped m operation := by
  unfold IsTyped
  cases operation with
  | call callee args =>
      have hcallee : (callee? m callee).isSome ↔ _ := isSome_callee?_iff callee args
      have hargs : (args.mapM (value? m n)).isSome ↔ _ := isSome_values?_iff
      rw [operation?, Operation.values, ← hargs]
      cases htype : m.operationType? (.call callee args) with
      | none => exact iff_of_false Bool.false_ne_true fun h => Bool.false_ne_true h.1
      | some ty =>
          rw [htype] at hcallee
          obtain ⟨target, htarget⟩ := Option.isSome_iff_exists.mp (hcallee.mpr rfl)
          rw [htarget]
          cases args.mapM (value? m n) with
          | none => exact iff_of_false Bool.false_ne_true fun h => Bool.false_ne_true h.2
          | some values => exact iff_of_true rfl ⟨rfl, rfl⟩
  | ret value =>
      cases value with
      | none => exact iff_of_true rfl ⟨rfl, fun v hv => absurd hv List.not_mem_nil⟩
      | some v =>
          rw [operation?, Option.isSome_map, isSome_value?_iff]
          constructor
          · intro h
            refine ⟨rfl, ?_⟩
            intro used hused
            rw [List.mem_singleton.mp hused]
            exact h
          · exact fun h => h.2 v List.mem_cons_self

theorem isSome_instruction?_iff {i : Instruction} (hi : m.instruction? id = some i) :
    (instruction? m n id).isSome ↔ IsTyped m i.operation := by
  have hoperation : (operation? m n id i.operation).isSome ↔ _ := isSome_operation?_iff
  rw [← hoperation, instruction?, hi, Option.bind_eq_bind, Option.bind_some, bind_pure_comp,
    Option.map_eq_map, Option.isSome_map]

/-! ## Functions -/

theorem isSome_block?_iff {b : Block} :
    (block? m n b).isSome ↔ ∀ id ∈ b.instrs.toList, (instruction? m n id).isSome := by
  rw [← isSome_mapM_iff, block?, bind_pure_comp, Option.map_eq_map, Option.isSome_map]

/-- A function whose blocks exist can be printed if each of their instructions can. -/
theorem isSome_function?_iff {f : Function} {blocks : List Block}
    (hblocks : f.blocks.toList.mapM m.block? = some blocks) :
    (function? m f).isSome ↔ ∀ id ∈ blocks.flatMap (·.instrs.toList),
      (instruction? m (numbering m f (blocks.flatMap (·.instrs.toList))) id).isSome := by
  rw [List.forall_mem_flatMap, function?]
  by_cases hdeclaration : f.isDeclaration = true
  · have hempty : f.blocks = #[] := Array.isEmpty_iff.mp hdeclaration
    rw [hempty] at hblocks
    cases hblocks
    rw [if_pos hdeclaration]
    exact iff_of_true rfl fun b hb => absurd hb List.not_mem_nil
  · rw [if_neg hdeclaration, hblocks, Option.bind_eq_bind, Option.bind_some, bind_pure_comp,
      Option.map_eq_map, Option.isSome_map, isSome_mapM_iff]
    exact forall₂_congr fun b _ => isSome_block?_iff

end Assembly

namespace Module

open Assembly

variable {m : Module}

theorem mem_instrIds_iff {id : InstrId} :
    id ∈ m.instrIds ↔ ∃ i, m.instruction? id = some i := by
  obtain ⟨index⟩ := id
  unfold instrIds instruction?
  rw [List.mem_map]
  constructor
  · rintro ⟨n, hn, hid⟩
    cases hid
    exact ⟨_, Array.getElem?_eq_getElem (List.mem_range.mp hn)⟩
  · rintro ⟨i, hi⟩
    obtain ⟨hlt, -⟩ := Array.getElem?_eq_some_iff.mp hi
    exact ⟨index, List.mem_range.mpr hlt, rfl⟩

theorem mem_functions_iff {f : Function} :
    f ∈ m.functions.toList ↔ ∃ function, m.function? function = some f := by
  rw [Array.mem_toList_iff, Array.mem_iff_getElem?]
  constructor
  · rintro ⟨n, hn⟩
    exact ⟨⟨n⟩, hn⟩
  · rintro ⟨function, hf⟩
    exact ⟨function.index, hf⟩

namespace IsFiled

/-- Every instruction is in a block of one of the functions. -/
theorem mem_blockInstrs_iff (h : m.IsFiled) {id : InstrId} :
    (∃ f ∈ m.functions.toList, id ∈ f.blocks.toList.flatMap m.blockInstrs) ↔
      ∃ i, m.instruction? id = some i := by
  rw [← mem_instrIds_iff, ← h.rows_perm.mem_iff, ← List.flatMap_def, List.mem_flatMap]

theorem isSome_function?_iff (h : m.IsFiled) {f : Function} (hf : f ∈ m.functions.toList) :
    (Assembly.function? m f).isSome ↔
      ∀ id ∈ f.blocks.toList.flatMap m.blockInstrs, ∀ i, m.instruction? id = some i →
        IsTyped m i.operation := by
  obtain ⟨function, hfunction⟩ := mem_functions_iff.mp hf
  obtain ⟨blocks, hblocks, hinstrs⟩ := Option.map_eq_some_iff.mp
    (mapM_block? fun block hblock => h.exists_block? hfunction hblock)
  rw [Assembly.isSome_function?_iff hblocks, hinstrs]
  refine forall₂_congr fun id hid => ?_
  obtain ⟨i, hi⟩ := h.mem_blockInstrs_iff.mp ⟨f, hf, hid⟩
  rw [isSome_instruction?_iff hi]
  constructor
  · intro htyped i' hi'
    cases hi.symm.trans hi'
    exact htyped
  · exact fun htyped => htyped i hi

/-- The functions can be printed if the types that the instructions show can be found. -/
theorem isSome_functions_iff (h : m.IsFiled) :
    (m.functions.toList.mapM (Assembly.function? m)).isSome ↔
      ∀ id i, m.instruction? id = some i → IsTyped m i.operation := by
  rw [isSome_mapM_iff]
  constructor
  · intro hprinted id i hi
    obtain ⟨f, hf, hid⟩ := h.mem_blockInstrs_iff.mpr ⟨i, hi⟩
    exact (h.isSome_function?_iff hf).mp (hprinted f hf) id hid i hi
  · intro htyped f hf
    rw [h.isSome_function?_iff hf]
    exact fun id _ i hi => htyped id i hi

end IsFiled

/-- All types can be found if every function that is called exists and every instruction
whose result is used. -/
theorem forall_isTyped_iff :
    (∀ id i, m.instruction? id = some i → IsTyped m i.operation) ↔
      (∀ id i function args, m.instruction? id = some i →
        i.operation = .call (.function function) args → (m.function? function).isSome) ∧
      ∀ id i used, m.instruction? id = some i → .result used ∈ i.operation.values →
        (m.instruction? used).isSome := by
  constructor
  · intro htyped
    refine ⟨?_, ?_⟩
    · intro id i function args hi hcall
      exact isSome_operationType?_iff.mp (htyped id i hi).1 function args hcall
    · intro id i used hi hused
      have htype := (htyped id i hi).2 _ hused
      rw [valueType?, resultType?] at htype
      cases hi' : m.instruction? used with
      | none =>
          rw [hi'] at htype
          cases htype
      | some i' => rfl
  · rintro ⟨hcalled, hused⟩ id i hi
    have htype {id : InstrId} {i : Instruction} (hi : m.instruction? id = some i) :
        (m.operationType? i.operation).isSome :=
      isSome_operationType?_iff.mpr fun function args hcall => hcalled id i function args hi hcall
    refine ⟨htype hi, ?_⟩
    intro v hv
    cases v with
    | const ty value => rfl
    | result used =>
        obtain ⟨i', hi'⟩ := Option.isSome_iff_exists.mp (hused id i used hi hv)
        rw [valueType?, resultType?, hi']
        exact htype hi'

end Module

namespace Assembly

variable {m : Module}

/-! ## Definitions -/

/-- An operand can be printed unless it is a function that does not exist. -/
theorem isSome_operand?_iff {operand : Operand} :
    (operand? m operand).isSome ↔
      ∀ function, operand = .function function → (m.function? function).isSome := by
  cases operand with
  | function id =>
      rw [operand?, Option.isSome_map]
      constructor
      · intro h function hfunction
        cases hfunction
        exact h
      · exact fun h => h id rfl
  | _ =>
      refine iff_of_true rfl ?_
      intro function hfunction
      cases hfunction

theorem isSome_node?_iff {node : Node} :
    (node? m node).isSome ↔ ∀ operands function, node = .tuple operands →
      .function function ∈ operands → (m.function? function).isSome := by
  cases node with
  | tuple operands =>
      rw [node?, bind_pure_comp, Option.map_eq_map, Option.isSome_map, isSome_mapM_iff]
      simp only [isSome_operand?_iff]
      constructor
      · intro h operands' function htuple hmem
        cases htuple
        exact h _ hmem function rfl
      · intro h operand hmem function hfunction
        exact h operands function rfl (hfunction ▸ hmem)
  | debug content distinct =>
      refine iff_of_true rfl ?_
      intro operands function htuple
      cases htuple

theorem isSome_definitions?_iff :
    (definitions? m).isSome ↔ ∀ id operands function, m.graph.node? id = some (.tuple operands) →
      .function function ∈ operands → (m.function? function).isSome := by
  rw [definitions?, bind_pure_comp, Option.map_eq_map, Option.isSome_map, isSome_mapM_iff]
  simp only [isSome_node?_iff]
  constructor
  · intro h id operands function hnode hmem
    exact h _ (Array.mem_toList_iff.mpr (Array.mem_of_getElem? hnode)) operands function rfl hmem
  · rintro h node hnode operands function rfl hmem
    obtain ⟨n, hn⟩ := Array.mem_iff_getElem?.mp (Array.mem_toList_iff.mp hnode)
    exact h ⟨n⟩ operands function hn hmem

end Assembly

/-! ## Modules -/

theorem Module.isSome_assembly?_iff {m : Module} :
    m.assembly?.isSome ↔
      (m.functions.toList.mapM (Assembly.function? m)).isSome ∧
        (Assembly.definitions? m).isSome := by
  unfold assembly? Assembly.lines? Assembly.paragraphs?
  cases m.functions.toList.mapM (Assembly.function? m) with
  | none => exact iff_of_false Bool.false_ne_true fun h => Bool.false_ne_true h.1
  | some functions =>
      cases Assembly.definitions? m with
      | none => exact iff_of_false Bool.false_ne_true fun h => Bool.false_ne_true h.2
      | some definitions => exact iff_of_true rfl ⟨rfl, rfl⟩

/-- Whatever was done to a session, its module cannot be printed exactly if an instruction
calls a function that does not exist, or uses the result of an instruction that does not
exist, or a tuple has an operand that is a function that does not exist. -/
theorem Session.assembly?_eq_none_iff (workingDirectory : List UInt8) (name : String)
    (commands : List Command) :
    let m := ((start workingDirectory name).run commands).2.module
    m.assembly? = none ↔
      (∃ id i function args, m.instruction? id = some i ∧
        i.operation = .call (.function function) args ∧ m.function? function = none) ∨
      (∃ id i used, m.instruction? id = some i ∧ .result used ∈ i.operation.values ∧
        m.instruction? used = none) ∨
      ∃ id operands function, m.graph.node? id = some (.tuple operands) ∧
        .function function ∈ operands ∧ m.function? function = none := by
  intro m
  have hfiled : m.IsFiled :=
    (Module.IsFiled.empty name).steps ((start workingDirectory name).steps_run commands)
  have hprinted := Module.isSome_assembly?_iff (m := m)
  rw [hfiled.isSome_functions_iff, Module.forall_isTyped_iff, Assembly.isSome_definitions?_iff]
    at hprinted
  rw [← Option.not_isSome_iff_eq_none, hprinted]
  simp only [← Option.not_isSome_iff_eq_none]
  grind

/-- No node and no list that is referred to here exists. -/
example : ({
    name := "m"
    functions := #[{ name := "f", signature := .unit, attachments := ⟨[("dbg", ⟨7⟩)]⟩ }]
    graph := {
      nodes := #[.tuple [.node ⟨7⟩, .list ⟨8⟩]]
      lists := #[#[⟨9⟩]]
      named := ⟨[("units", #[⟨7⟩])], (∅ : Std.HashMap String Nat).insert "units" 0⟩ } } : Module).assembly?.isSome := by decide +kernel

end DebugMetadata

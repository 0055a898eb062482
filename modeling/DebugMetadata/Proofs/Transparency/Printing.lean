import DebugMetadata.Assembly.Function
import DebugMetadata.Proofs.Lists
import DebugMetadata.Proofs.Transparency.Locations
import DebugMetadata.Proofs.Transparency.Selection

/-!
# How instructions are printed

The text of an instruction depends on its operation and on the numbers of the
values in its function.  An instruction that yields no value takes no number, so
a module prints what it keeps of another one as that one does, whatever names its
instructions have.
-/

namespace DebugMetadata.Assembly

/-- The numbers of the values in the function of an instruction. -/
def numbersAt? (m : Module) (id : InstrId) : Option Numbering := do
  let owner ← m.owner? id
  let f ← m.function? owner
  let instrs ← m.functionInstrs? owner
  return numbering m f instrs

/-- The line of an instruction in the text of its function. -/
def line? (m : Module) (id : InstrId) : Option String := do
  let n ← numbersAt? m id
  instruction? m n id

/-- What the line of an instruction says that it does. -/
def body? (m : Module) (id : InstrId) : Option String := do
  let n ← numbersAt? m id
  let i ← m.instruction? id
  operation? m n id i.operation

/-- What is written of the location and the attachments of an instruction. -/
def slotsText (i : Instruction) : String :=
  String.join ((slots i).map fun entry => ", " ++ attachment entry)

theorem line?_eq (m : Module) (id : InstrId) :
    line? m id = (m.instruction? id).bind fun i =>
      (body? m id).map fun body => "  " ++ body ++ slotsText i := by
  cases hi : m.instruction? id with
  | none => simp [line?, numbersAt?, Module.owner?, hi]
  | some i =>
      cases hn : numbersAt? m id with
      | none => simp [line?, body?, hn]
      | some n =>
          simp only [line?, body?, instruction?, hn, hi, slotsText, Option.bind_eq_bind,
            Option.bind_some]
          cases operation? m n id i.operation <;> rfl

/-! ## Numbers -/

/-- The numbers of a function whose instructions have other names. -/
def Numbering.rename (f : InstrId → InstrId) (n : Numbering) : Numbering :=
  { n with results := n.results.map f }

private theorem idxOf?_map {f : InstrId → InstrId} {id : InstrId} {results : List InstrId}
    (hinj : ∀ result ∈ results, f result = f id → result = id) :
    (results.map f).idxOf? (f id) = results.idxOf? id := by
  induction results with
  | nil => rfl
  | cons result results ih =>
      have htail := ih fun r hr => hinj r (List.mem_cons_of_mem result hr)
      rw [List.map_cons, List.idxOf?_cons, List.idxOf?_cons, htail]
      by_cases heq : result = id
      · rw [heq, if_pos (beq_self_eq_true _), if_pos (beq_self_eq_true _)]
      · have hne : f result ≠ f id := fun h => heq (hinj result List.mem_cons_self h)
        rw [if_neg (by simpa using hne), if_neg (by simpa using heq)]

theorem Numbering.number?_rename {n : Numbering} {f : InstrId → InstrId} {id : InstrId}
    (hinj : ∀ result ∈ n.results, f result = f id → result = id) :
    (n.rename f).number? (f id) = n.number? id := by
  rw [number?, number?, rename, idxOf?_map hinj]

/-! ## Modules that print alike -/

/-- The second module has the functions of the first one and the kept ones of its
instructions, under other names.  The instructions that are not kept yield no
value. -/
structure Mirrors (m m' : Module) (kept : InstrId → Bool) (f : InstrId → InstrId) : Prop where
  functions : ∀ id, (m'.function? id).map (fun g => (g.name, g.signature)) =
    (m.function? id).map fun g => (g.name, g.signature)
  owners : ∀ id, (m'.block? id).map (·.function) = (m.block? id).map (·.function)
  instrs : ∀ id, m'.functionInstrs? id =
    (m.functionInstrs? id).map fun ids => (ids.filter kept).map f
  instruction : ∀ id, kept id = true →
    (m'.instruction? (f id)).map (fun i => (i.operation, i.block)) =
      (m.instruction? id).map fun i => (i.operation.rename f, i.block)
  uses : ∀ id, kept id = true → ∀ i ∈ m.instruction? id, ∀ used ∈ i.operation.uses,
    kept used = true
  injective : ∀ id other, kept id = true → kept other = true → f id = f other → id = other
  silent : ∀ id, kept id = false → yieldsValue m id = false

namespace Mirrors

variable {m m' : Module} {kept : InstrId → Bool} {f : InstrId → InstrId} {id : InstrId}
  {g g' : Function} {ids : List InstrId}

theorem operationType? (h : Mirrors m m' kept f) (operation : Operation) :
    m'.operationType? (operation.rename f) = m.operationType? operation := by
  cases operation with
  | call callee args =>
      cases callee with
      | function id =>
          have hresult := congrArg (Option.map fun entry => entry.2.result) (h.functions id)
          rw [Option.map_map, Option.map_map] at hresult
          exact hresult
      | asm fragment => rfl
  | ret value => rfl

theorem resultType? (h : Mirrors m m' kept f) (hid : kept id = true) :
    m'.resultType? (f id) = m.resultType? id := by
  have hinstr := h.instruction id hid
  rw [Module.resultType?, Module.resultType?]
  cases hi : m.instruction? id with
  | none =>
      rw [hi, Option.map_none, Option.map_eq_none_iff] at hinstr
      rw [hinstr]
      rfl
  | some i =>
      rw [hi, Option.map_some, Option.map_eq_some_iff] at hinstr
      obtain ⟨i', hi', heq⟩ := hinstr
      have hoperation : i'.operation = i.operation.rename f := congrArg Prod.fst heq
      rw [hi', Option.bind_eq_bind, Option.bind_some, hoperation]
      exact h.operationType? i.operation

theorem yieldsValue_eq (h : Mirrors m m' kept f) (hid : kept id = true) :
    yieldsValue m' (f id) = yieldsValue m id := by
  rw [yieldsValue, yieldsValue, h.resultType? hid]

theorem results_eq (h : Mirrors m m' kept f) (ids : List InstrId) :
    ((ids.filter kept).map f).filter (yieldsValue m') = (ids.filter (yieldsValue m)).map f := by
  rw [List.filter_map, List.filter_filter]
  congr 1
  apply List.filter_congr
  intro id _
  cases hid : kept id with
  | true => rw [Function.comp_apply, h.yieldsValue_eq hid, Bool.and_true]
  | false => rw [Bool.and_false, h.silent id hid]

theorem numbering_eq (h : Mirrors m m' kept f) (hg : g'.signature = g.signature) :
    numbering m' g' ((ids.filter kept).map f) = (numbering m g ids).rename f := by
  rw [numbering, h.results_eq, hg]
  rfl

theorem owner?_eq (h : Mirrors m m' kept f) (hid : kept id = true) :
    m'.owner? (f id) = m.owner? id := by
  have hinstr := congrArg (Option.map Prod.snd) (h.instruction id hid)
  rw [Option.map_map, Option.map_map] at hinstr
  change (m'.instruction? (f id)).map (·.block) = (m.instruction? id).map (·.block) at hinstr
  rw [Module.owner?_eq_bind, Module.owner?_eq_bind, hinstr]
  congr 1
  funext b
  exact h.owners b

theorem numbersAt?_eq (h : Mirrors m m' kept f) (hid : kept id = true) :
    numbersAt? m' (f id) = (numbersAt? m id).map (Numbering.rename f) := by
  rw [numbersAt?, numbersAt?, h.owner?_eq hid]
  cases m.owner? id with
  | none => rfl
  | some owner =>
      have hfunctions := h.functions owner
      cases hg : m.function? owner with
      | none =>
          rw [hg, Option.map_none, Option.map_eq_none_iff] at hfunctions
          simp [hg, hfunctions]
      | some g =>
          rw [hg, Option.map_some, Option.map_eq_some_iff] at hfunctions
          obtain ⟨g', hg', heq⟩ := hfunctions
          simp only [Option.bind_eq_bind, Option.bind_some, hg, hg', h.instrs owner]
          cases m.functionInstrs? owner with
          | none => rfl
          | some ids => exact congrArg some (h.numbering_eq (congrArg Prod.snd heq))

theorem kept_of_mem_results (h : Mirrors m m' kept f) {n : Numbering}
    (hn : n ∈ numbersAt? m id) {result : InstrId} (hresult : result ∈ n.results) :
    kept result = true := by
  simp only [numbersAt?, Option.bind_eq_bind, Option.mem_def, Option.bind_eq_some_iff] at hn
  obtain ⟨owner, -, g, -, ids, -, hn⟩ := hn
  cases hn
  have hyields : yieldsValue m result = true := (List.mem_filter.mp hresult).2
  cases hkept : kept result with
  | true => rfl
  | false =>
      rw [h.silent result hkept] at hyields
      cases hyields

theorem number?_eq (h : Mirrors m m' kept f) {n : Numbering} (hn : n ∈ numbersAt? m id)
    {used : InstrId} (hused : kept used = true) :
    (n.rename f).number? (f used) = n.number? used := by
  apply Numbering.number?_rename
  intro result hresult heq
  exact h.injective result used (h.kept_of_mem_results hn hresult) hused heq

/-! ## Bodies -/

variable {n : Numbering}

theorem value?_eq (h : Mirrors m m' kept f) (hn : n ∈ numbersAt? m id) {v : Value}
    (hv : ∀ used ∈ v.instr?, kept used = true) :
    value? m' (n.rename f) (v.rename f) = value? m n v := by
  cases v with
  | const ty value => rfl
  | result used =>
      have hused := hv used rfl
      rw [value?, value?, Value.rename, Module.valueType?, Module.valueType?,
        h.resultType? hused, bareValue, bareValue, h.number?_eq hn hused]

theorem callee?_eq (h : Mirrors m m' kept f) (callee : Callee) :
    callee? m' callee = callee? m callee := by
  cases callee with
  | function id =>
      have hname := congrArg (Option.map fun entry => "@" ++ entry.1) (h.functions id)
      rw [Option.map_map, Option.map_map] at hname
      exact hname
  | asm fragment => rfl

theorem operation?_eq (h : Mirrors m m' kept f) (hn : n ∈ numbersAt? m id)
    (hid : kept id = true) {operation : Operation}
    (huses : ∀ used ∈ operation.uses, kept used = true) :
    operation? m' (n.rename f) (f id) (operation.rename f) = operation? m n id operation := by
  have hvalue : ∀ v ∈ operation.values,
      value? m' (n.rename f) (v.rename f) = value? m n v := by
    intro v hv
    apply h.value?_eq hn
    intro used hused
    exact huses used (List.mem_filterMap.mpr ⟨v, hv, hused⟩)
  cases operation with
  | call callee args =>
      have hargs : (args.map (Value.rename f)).mapM (value? m' (n.rename f)) =
          args.mapM (value? m n) := by
        rw [List.mapM_map]
        exact mapM_congr hvalue
      have htype := h.operationType? (.call callee args)
      rw [Operation.rename] at htype ⊢
      rw [operation?, operation?, htype, h.callee?_eq, hargs, assignment, assignment,
        h.number?_eq hn hid]
  | ret value =>
      cases value with
      | none => rfl
      | some v =>
          have hv := hvalue v (by simp [Operation.values])
          simp only [Operation.rename, operation?, Option.map_some, hv]

theorem body?_eq (h : Mirrors m m' kept f) (hid : kept id = true) :
    body? m' (f id) = body? m id := by
  rw [body?, body?, h.numbersAt?_eq hid]
  cases hn : numbersAt? m id with
  | none => simp only [Option.map_none, Option.bind_eq_bind, Option.bind_none]
  | some n =>
      have hinstr := h.instruction id hid
      cases hi : m.instruction? id with
      | none =>
          rw [hi, Option.map_none, Option.map_eq_none_iff] at hinstr
          simp [hinstr]
      | some i =>
          rw [hi, Option.map_some, Option.map_eq_some_iff] at hinstr
          obtain ⟨i', hi', heq⟩ := hinstr
          have hoperation : i'.operation = i.operation.rename f := congrArg Prod.fst heq
          simp only [Option.bind_eq_bind, Option.map_some, Option.bind_some, hi', hoperation]
          exact h.operation?_eq hn hid (h.uses id hid i hi)

end Mirrors

variable {m m' : Module} {instr : InstrId} {ids : List InstrId}

/-- A module mirrors one with the same blocks, and with functions and instructions
that differ only in what is not printed in a body. -/
theorem mirrors_self
    (hfunctions : ∀ f, (m'.function? f).map (fun g => (g.name, g.signature, g.blocks)) =
      (m.function? f).map fun g => (g.name, g.signature, g.blocks))
    (hblocks : m'.blocks = m.blocks)
    (hinstrs : ∀ instr, (m'.instruction? instr).map (fun i => (i.operation, i.block)) =
      (m.instruction? instr).map fun i => (i.operation, i.block)) :
    Mirrors m m' (fun _ => true) id where
  functions f := by
    have h := congrArg (Option.map fun entry => (entry.1, entry.2.1)) (hfunctions f)
    rw [Option.map_map, Option.map_map] at h
    exact h
  owners b := by rw [Module.block?, hblocks, Module.block?]
  instrs f := by
    have hblock : m'.block? = m.block? := by
      funext b
      rw [Module.block?, hblocks, Module.block?]
    have h := hfunctions f
    have hsame : m'.functionInstrs? f = m.functionInstrs? f := by
      cases hg : m.function? f with
      | none =>
          rw [hg, Option.map_none, Option.map_eq_none_iff] at h
          simp only [Module.functionInstrs?, hg, h, Option.bind_eq_bind, Option.bind_none]
      | some g =>
          rw [hg, Option.map_some, Option.map_eq_some_iff] at h
          obtain ⟨g', hg', heq⟩ := h
          have hsame : g'.blocks = g.blocks := congrArg (·.2.2) heq
          simp only [Module.functionInstrs?, hg, hg', hblock, hsame, Option.bind_eq_bind,
            Option.bind_some]
    have hid : (fun ids : List InstrId => (ids.filter fun _ => true).map id) = id := by
      funext ids
      rw [List.filter_true, List.map_id, id]
    rw [hsame, hid, Option.map_id, id]
  instruction instr _ := by
    rw [id, hinstrs instr]
    congr 1
    funext i
    rw [Operation.rename_id]
  uses _ _ _ _ _ _ := rfl
  injective _ _ _ _ heq := heq
  silent _ hkept := by cases hkept

theorem mirrors_keep (h : m.Closed ids)
    (hsilent : ∀ instr, instr ∉ ids → yieldsValue m instr = false) :
    Mirrors m (m.keep ids) (· ∈ ids) (rankIn ids) where
  functions _ := rfl
  owners b := by
    rw [Module.block?_keep, Option.map_map]
    rfl
  instrs f := m.functionInstrs?_keep ids f
  instruction instr hkept := by
    rw [h.instruction?_keep (by simpa using hkept), Option.map_map]
    rfl
  uses instr hkept i hi used hused := by
    have hmem := h.uses instr (by simpa using hkept) i hi used hused
    simpa using hmem
  injective instr other hkept _ heq := rankIn_injOn (by simpa using hkept) heq
  silent instr hkept := hsilent instr (by simpa using hkept)

/-! ## Lines -/

theorem line?_code (m : Module) (instr : InstrId) : line? m.code instr = line? m instr := by
  have h : Mirrors m m.code (fun _ => true) id := mirrors_self (fun _ => rfl) rfl fun _ => rfl
  have hbody : body? m.code instr = body? m instr := h.body?_eq rfl
  rw [line?_eq, line?_eq, hbody]
  rfl

theorem line?_keep (h : m.Closed ids)
    (hsilent : ∀ instr, instr ∉ ids → yieldsValue m instr = false) (hinstr : instr ∈ ids) :
    line? (m.keep ids) (rankIn ids instr) = line? m instr := by
  have hkept : decide (instr ∈ ids) = true := by simpa using hinstr
  have hbody : body? (m.keep ids) (rankIn ids instr) = body? m instr :=
    (mirrors_keep h hsilent).body?_eq hkept
  rw [line?_eq, line?_eq, hbody, h.instruction?_keep hinstr, Option.bind_map]
  rfl

/-- What is written of a location. -/
def locationText (location : Option NodeId) : String :=
  match location with
  | none => ""
  | some node => ", " ++ attachment ("dbg", node)

/-- Without its location an instruction has the same line up to where its slots
begin. -/
theorem line?_withoutLocations {i : Instruction} (hi : m.instruction? instr = some i)
    (hattachments : i.attachments = ∅) :
    line? m instr =
      (line? m.withoutLocations instr).map fun line => line ++ locationText i.location := by
  have hfunctions : ∀ f, (m.withoutLocations.function? f).map
      (fun g => (g.name, g.signature, g.blocks)) =
      (m.function? f).map fun g => (g.name, g.signature, g.blocks) := by
    intro f
    change ((m.functions.map Function.withoutSubprogram)[f.index]?).map _ = _
    rw [Array.getElem?_map, Option.map_map]
    rfl
  have hinstr : ∀ other, m.withoutLocations.instruction? other =
      (m.instruction? other).map Instruction.withoutLocation :=
    fun other => Array.getElem?_map
  have h : Mirrors m m.withoutLocations (fun _ => true) id := by
    apply mirrors_self hfunctions rfl
    intro other
    rw [hinstr, Option.map_map]
    rfl
  have hbody : body? m.withoutLocations instr = body? m instr := h.body?_eq rfl
  rw [line?_eq, line?_eq, hbody, hinstr, hi]
  simp only [Option.bind_some, Option.map_some, Option.map_map]
  congr 1
  funext body
  have hbare : slotsText i.withoutLocation = "" := by
    rw [slotsText, slots, Instruction.withoutLocation, hattachments]
    rfl
  have hslots : slotsText i = locationText i.location := by
    rw [slotsText, slots, hattachments]
    cases i.location with
    | none => rfl
    | some node => exact String.empty_append
  rw [Function.comp_apply, hbare, hslots, String.append_empty]

end DebugMetadata.Assembly

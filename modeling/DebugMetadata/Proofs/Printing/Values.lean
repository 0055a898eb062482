import DebugMetadata.Proofs.Printing.Failure
import DebugMetadata.Proofs.Printing.Numbers

/-!
# Numbers of values

A function is read as its instructions in the order of its blocks.  The calls that yield a
value are numbered as they are read, from the number of the parameters on, and nothing else
has a number.  A value is used by its number wherever it is used, and what has no number in
the function is undefined there.
-/

namespace DebugMetadata

/-- The instruction is in a block of the function and is a call with a result that is not
void. -/
def Module.YieldsIn (m : Module) (function : FunctionId) (id : InstrId) : Prop :=
  m.owner? id = some function ∧ ∃ i callee args ty, m.instruction? id = some i ∧
    i.operation = .call callee args ∧ m.operationType? i.operation = some ty ∧ ty ≠ .void

/-! ## Instructions of a function -/

namespace Module

variable {m : Module} {function : FunctionId} {f : Function} {blocks : List Block} {id : InstrId}

theorem mem_blockIds_iff {id : BlockId} : id ∈ m.blockIds ↔ ∃ b, m.block? id = some b := by
  obtain ⟨index⟩ := id
  unfold blockIds block?
  rw [List.mem_map]
  constructor
  · rintro ⟨n, hn, hid⟩
    cases hid
    exact ⟨_, Array.getElem?_eq_getElem (List.mem_range.mp hn)⟩
  · rintro ⟨b, hb⟩
    obtain ⟨hlt, -⟩ := Array.getElem?_eq_some_iff.mp hb
    exact ⟨index, List.mem_range.mpr hlt, rfl⟩

theorem nodup_instrIds (m : Module) : m.instrIds.Nodup :=
  List.nodup_range.map fun _ _ h => InstrId.mk.inj h

namespace IsFiled

theorem mem_blocks_iff (h : m.IsFiled) (hf : m.function? function = some f) {block : BlockId} :
    block ∈ f.blocks.toList ↔ ∃ b, m.block? block = some b ∧ b.function = function := by
  rw [h.blocks_eq hf, List.mem_filter, mem_blockIds_iff, decide_eq_true_eq,
    Option.map_eq_some_iff]
  constructor
  · exact fun h => h.2
  · rintro ⟨b, hb, hfunction⟩
    exact ⟨⟨b, hb⟩, b, hb, hfunction⟩

theorem mem_instrs_iff (h : m.IsFiled) {block : BlockId} {b : Block}
    (hb : m.block? block = some b) :
    id ∈ b.instrs.toList ↔ ∃ i, m.instruction? id = some i ∧ i.block = block := by
  rw [h.instrs_eq hb, List.mem_filter, mem_instrIds_iff, decide_eq_true_eq,
    Option.map_eq_some_iff]
  constructor
  · exact fun h => h.2
  · rintro ⟨i, hi, hblock⟩
    exact ⟨⟨i, hi⟩, i, hi, hblock⟩

/-- What a function lists is what says to be in it. -/
theorem mem_functionInstrs_iff (h : m.IsFiled) (hf : m.function? function = some f)
    (hblocks : f.blocks.toList.mapM m.block? = some blocks) :
    id ∈ blocks.flatMap (·.instrs.toList) ↔ m.owner? id = some function := by
  rw [List.mem_flatMap]
  constructor
  · rintro ⟨b, hmem, hid⟩
    obtain ⟨block, hblock, hb⟩ := exists_of_mem_mapM hblocks hmem
    obtain ⟨b', hb', hfunction⟩ := (h.mem_blocks_iff hf).mp hblock
    cases hb.symm.trans hb'
    obtain ⟨i, hi, rfl⟩ := (h.mem_instrs_iff hb).mp hid
    rw [owner?, hi, Option.bind_eq_bind, Option.bind_some, hb, Option.map_some, hfunction]
  · intro howner
    obtain ⟨i, hi, howner⟩ := Option.bind_eq_some_iff.mp howner
    obtain ⟨b, hb, hfunction⟩ := Option.map_eq_some_iff.mp howner
    have hblock : i.block ∈ f.blocks.toList := (h.mem_blocks_iff hf).mpr ⟨b, hb, hfunction⟩
    obtain ⟨n, hn⟩ := List.mem_iff_getElem?.mp hblock
    obtain ⟨b', hmem, hb'⟩ := getElem?_of_mapM hblocks hn
    cases hb.symm.trans hb'
    exact ⟨b, List.mem_of_getElem? hmem, (h.mem_instrs_iff hb).mpr ⟨i, hi, rfl⟩⟩

theorem nodup_functionInstrs (h : m.IsFiled) (hf : m.function? function = some f)
    (hblocks : f.blocks.toList.mapM m.block? = some blocks) :
    (blocks.flatMap (·.instrs.toList)).Nodup := by
  have hinstrs := mapM_block? (m := m) fun block hblock => h.exists_block? hf hblock
  rw [hblocks, Option.map_some, Option.some.injEq] at hinstrs
  have hnodup := h.rows_perm.nodup_iff.mpr m.nodup_instrIds
  rw [hinstrs]
  exact (List.nodup_flatten.mp hnodup).1 _
    (List.mem_map_of_mem (mem_functions_iff.mpr ⟨function, hf⟩))

end IsFiled

end Module

namespace Assembly

open Text (decimal)

variable {m : Module} {id : InstrId}

/-! ## Numbers -/

/-- Without repetitions, the places of the entries of a list are its places in order. -/
theorem filterMap_idxOf? {results : List InstrId} (h : results.Nodup) :
    results.filterMap results.idxOf? = List.range results.length := by
  have hplace {n : Nat} (hn : n < results.length) : results.idxOf? results[n] = some n := by
    rw [List.idxOf?_eq_some_iff]
    refine ⟨hn, rfl, ?_⟩
    intro k hk heq
    exact Nat.ne_of_lt hk (h.getElem_inj_iff.mp heq)
  have hplaces : results.map results.idxOf? = (List.range results.length).map some := by
    apply List.ext_getElem
    · simp
    · intro n hn hn'
      rw [List.getElem_map, List.getElem_map, List.getElem_range]
      exact hplace (by simpa using hn)
  calc results.filterMap results.idxOf?
      = (results.map results.idxOf?).filterMap id := by rw [List.filterMap_map, Function.id_comp]
    _ = List.range results.length := by
        rw [hplaces, List.filterMap_map, Function.id_comp, List.filterMap_some]

/-- The selected entries are numbered as they are read. -/
theorem filterMap_number? {instrs : List InstrId} (hnodup : instrs.Nodup) (p : InstrId → Bool)
    (first : Nat) : instrs.filterMap (Numbering.number? ⟨first, instrs.filter p⟩) =
      List.range' first (instrs.filter p).length := by
  have hselected : instrs.filterMap (instrs.filter p).idxOf? =
      (instrs.filter p).filterMap (instrs.filter p).idxOf? := by
    rw [List.filterMap_filter]
    apply List.filterMap_congr
    intro id hid
    split
    next => rfl
    next hp =>
      rw [List.idxOf?_eq_none_iff, List.mem_filter]
      exact fun h => hp h.2
  calc instrs.filterMap (Numbering.number? ⟨first, instrs.filter p⟩)
      = (instrs.filterMap (instrs.filter p).idxOf?).map (first + ·) := by
        rw [List.map_filterMap]
        rfl
    _ = List.range' first (instrs.filter p).length := by
        rw [hselected, filterMap_idxOf? (hnodup.filter p), List.range'_eq_map_range]

theorem isSome_number?_iff {n : Numbering} : (n.number? id).isSome ↔ id ∈ n.results := by
  rw [Numbering.number?, Option.isSome_map, List.isSome_idxOf?]

theorem yieldsValue_iff : yieldsValue m id = true ↔ ∃ i callee args ty,
    m.instruction? id = some i ∧ i.operation = .call callee args ∧
      m.operationType? i.operation = some ty ∧ ty ≠ .void := by
  rw [yieldsValue, Option.any_eq_true]
  constructor
  · rintro ⟨ty, hty, hvoid⟩
    obtain ⟨i, hi, hty⟩ := Option.bind_eq_some_iff.mp hty
    rw [bne_iff_ne] at hvoid
    cases hoperation : i.operation with
    | call callee args => exact ⟨i, callee, args, ty, hi, hoperation, hoperation ▸ hty, hvoid⟩
    | ret value =>
        rw [hoperation] at hty
        exact absurd (Option.some.inj hty).symm hvoid
  · rintro ⟨i, callee, args, ty, hi, -, hty, hvoid⟩
    refine ⟨ty, ?_, bne_iff_ne.mpr hvoid⟩
    rw [Module.resultType?, hi]
    exact hty

/-- Read in order, the calls of the function that yield a value have the numbers from the
first one on, and nothing else has a number. -/
structure NumbersValues (m : Module) (function : FunctionId) (instrs : List InstrId)
    (first : Nat) (number? : InstrId → Option Nat) : Prop where
  consecutive : instrs.filterMap number? =
    List.range' first (instrs.filterMap number?).length
  isSome_iff : ∀ id, (number? id).isSome ↔ m.YieldsIn function id

theorem numbersValues {function : FunctionId} {f : Function} {blocks : List Block}
    (h : m.IsFiled) (hf : m.function? function = some f)
    (hblocks : f.blocks.toList.mapM m.block? = some blocks) :
    NumbersValues m function (blocks.flatMap (·.instrs.toList)) f.signature.params.length
      (numbering m f (blocks.flatMap (·.instrs.toList))).number? where
  consecutive := by
    rw [numbering, filterMap_number? (h.nodup_functionInstrs hf hblocks), List.length_range']
  isSome_iff id := by
    rw [isSome_number?_iff, numbering, List.mem_filter, h.mem_functionInstrs_iff hf hblocks,
      yieldsValue_iff]
    rfl

/-! ## Texts with numbers -/

/-- A value is written after its type: a constant as it is, and a result as its number or as
undefined if it has none. -/
def IsValueText (m : Module) (number? : InstrId → Option Nat) : Value → String → Prop
  | .const ty value, text => text = ty.text ++ " " ++ decimal value
  | .result used, text => ∃ ty, m.resultType? used = some ty ∧
      text = ty.text ++ " " ++ ((number? used).map fun n => "%" ++ n.repr).getD "undef"

/-- A call is written after the number of its result, if it has one, and a return after the
value that it returns. -/
def IsOperationText (m : Module) (number? : InstrId → Option Nat) (id : InstrId) :
    Operation → String → Prop
  | .call callee args, text => ∃ ty target items,
      m.operationType? (.call callee args) = some ty ∧ callee? m callee = some target ∧
      List.Forall₂ (IsValueText m number?) args items ∧
      text = ((number? id).map fun n => "%" ++ n.repr ++ " = ").getD "" ++ "call " ++ ty.text ++
        " " ++ target ++ "(" ++ ", ".intercalate items ++ ")"
  | .ret none, text => text = "ret void"
  | .ret (some value), text => ∃ item, IsValueText m number? value item ∧ text = "ret " ++ item

/-- The line of an instruction is what it does and then its location and attachments. -/
def IsNumberedLine (m : Module) (number? : InstrId → Option Nat) (id : InstrId) (line : String) :
    Prop :=
  ∃ i operation, m.instruction? id = some i ∧
    IsOperationText m number? id i.operation operation ∧
    line = "  " ++ operation ++
      attachmentsText ", " ((i.location.map ("dbg", ·)).toList ++ i.attachments.entries)

/-- The lines of a function with blocks are those of its blocks, in which the values are
numbered from the number of the parameters on. -/
def IsNumberedText (m : Module) (function : FunctionId) (f : Function) (lines : List String) :
    Prop :=
  ∃ number? blocks bodies, f.blocks.toList.mapM m.block? = some blocks ∧
    NumbersValues m function (blocks.flatMap (·.instrs.toList)) f.signature.params.length number? ∧
    lines = [header f ++ " \x7b"] ++ [""].intercalate bodies ++ ["\x7d"] ∧
    List.Forall₂ (fun b body => ∃ instructions, body = (b.label ++ ":") :: instructions ∧
      List.Forall₂ (IsNumberedLine m number?) b.instrs.toList instructions) blocks bodies

variable {n : Numbering}

theorem isValueText_value? {v : Value} {item : String} (hitem : value? m n v = some item) :
    IsValueText m n.number? v item := by
  obtain ⟨ty, hty, hitem⟩ := Option.bind_eq_some_iff.mp hitem
  cases hitem
  cases v with
  | const ty' value =>
      cases hty
      rfl
  | result used =>
      refine ⟨ty, hty, ?_⟩
      rw [bareValue]
      cases n.number? used <;> rfl

theorem assignment_eq (n : Numbering) (id : InstrId) : assignment n id =
    ((n.number? id).map fun number => "%" ++ number.repr ++ " = ").getD "" := by
  rw [assignment]
  cases n.number? id <;> rfl

theorem isOperationText_operation? {operation : Operation} {text : String}
    (htext : operation? m n id operation = some text) :
    IsOperationText m n.number? id operation text := by
  cases operation with
  | call callee args =>
      obtain ⟨ty, hty, htext⟩ := Option.bind_eq_some_iff.mp htext
      obtain ⟨target, htarget, htext⟩ := Option.bind_eq_some_iff.mp htext
      obtain ⟨items, hitems, htext⟩ := Option.bind_eq_some_iff.mp htext
      cases htext
      refine ⟨ty, target, items, hty, htarget, ?_, ?_⟩
      · exact (mapM_eq_some_iff.mp hitems).imp fun _ _ => isValueText_value?
      · rw [assignment_eq]
        rfl
  | ret value =>
      cases value with
      | none => exact (Option.some.inj htext).symm
      | some v =>
          obtain ⟨item, hitem, rfl⟩ := Option.map_eq_some_iff.mp htext
          exact ⟨item, isValueText_value? hitem, rfl⟩

theorem isNumberedLine_instruction? {line : String} (hline : instruction? m n id = some line) :
    IsNumberedLine m n.number? id line := by
  obtain ⟨i, hi, hline⟩ := Option.bind_eq_some_iff.mp hline
  obtain ⟨operation, hoperation, hline⟩ := Option.bind_eq_some_iff.mp hline
  cases hline
  exact ⟨i, operation, hi, isOperationText_operation? hoperation, by rw [attachmentsText_eq]; rfl⟩

theorem isNumberedText_function? {function : FunctionId} {f : Function} {lines : List String}
    (h : m.IsFiled) (hf : m.function? function = some f) (hdefinition : f.isDeclaration = false)
    (hlines : function? m f = some lines) : IsNumberedText m function f lines := by
  rw [function?, if_neg (by rw [hdefinition]; exact Bool.false_ne_true)] at hlines
  obtain ⟨blocks, hblocks, hlines⟩ := Option.bind_eq_some_iff.mp hlines
  obtain ⟨bodies, hbodies, hlines⟩ := Option.bind_eq_some_iff.mp hlines
  cases hlines
  refine ⟨_, blocks, bodies, hblocks, numbersValues h hf hblocks, rfl, ?_⟩
  refine (mapM_eq_some_iff.mp hbodies).imp fun b body hbody => ?_
  obtain ⟨instructions, hinstructions, hbody⟩ := Option.bind_eq_some_iff.mp hbody
  cases hbody
  exact ⟨instructions, rfl,
    (mapM_eq_some_iff.mp hinstructions).imp fun _ _ => isNumberedLine_instruction?⟩

end Assembly

open Assembly

/-- Whatever was done to a session, if its module is printed then the text has the lines of
each function in its place, and in those of a function with blocks the calls that yield a
value are numbered as they are read and used by their numbers. -/
theorem Session.exists_isNumberedText (workingDirectory : List UInt8) (name : String)
    (commands : List Command) {text : String} :
    let m := ((start workingDirectory name).run commands).2.module
    m.assembly? = some text →
    ∃ (paragraphs : List (List String)) (rest : List String), text = String.join
        ((moduleHeader m ++ paragraphs.flatMap setOff ++ rest).map (· ++ "\n")) ∧
      paragraphs.length = m.functions.size ∧
      ∀ function f, m.function? function = some f → f.isDeclaration = false →
        ∃ lines, paragraphs[function.index]? = some lines ∧ IsNumberedText m function f lines := by
  intro m htext
  have hfiled : m.IsFiled :=
    (Module.IsFiled.empty name).steps ((start workingDirectory name).steps_run commands)
  obtain ⟨lines, hlines, rfl⟩ := Option.map_eq_some_iff.mp htext
  obtain ⟨paragraphs, hparagraphs, hlines⟩ := Option.bind_eq_some_iff.mp hlines
  cases hlines
  obtain ⟨functions, hfunctions, hparagraphs⟩ := Option.bind_eq_some_iff.mp hparagraphs
  obtain ⟨definitions, -, hparagraphs⟩ := Option.bind_eq_some_iff.mp hparagraphs
  cases hparagraphs
  refine ⟨functions, [namedLists m.graph, definitions].flatMap setOff, ?_, ?_, ?_⟩
  · rw [List.flatMap_append, ← List.append_assoc]
  · rw [← (mapM_eq_some_iff.mp hfunctions).length_eq, Array.length_toList]
  · intro function f hf hdefinition
    have hplace : m.functions.toList[function.index]? = some f := by
      rw [Array.getElem?_toList]
      exact hf
    obtain ⟨lines, hlines, hprinted⟩ := getElem?_of_mapM hfunctions hplace
    exact ⟨lines, hlines, isNumberedText_function? hfiled hf hdefinition hprinted⟩

namespace Session

/-- Two functions whose blocks are filled in turns.  The second block of the first one is
filled before the first. -/
def alternatingRun : List Command :=
  [.addFunction "f" ⟨.i32, [.i32, .ptr]⟩, .addFunction "g" .unit,
    .appendBlock ⟨0⟩ "entry", .appendBlock ⟨0⟩ "exit", .appendBlock ⟨1⟩ "entry",
    .openCursor ⟨0⟩, .openCursor ⟨1⟩, .openCursor ⟨2⟩,
    .cursor 1 (.emit (.call (.function ⟨0⟩) [.result ⟨3⟩, .const .i32 7])),
    .cursor 0 (.emit (.call (.function ⟨1⟩) [])),
    .cursor 2 (.emit (.call (.function ⟨0⟩) [])),
    .cursor 0 (.emit (.call (.function ⟨0⟩) [.result ⟨0⟩, .result ⟨1⟩])),
    .cursor 1 (.emit (.ret (some (.result ⟨2⟩))))]

/-- The session after the two functions are declared. -/
private def pairDeclared : Session :=
  { start [] "m" with
    module := (({ name := "m" } : Module).pushFunction "f" ⟨.i32, [.i32, .ptr]⟩).pushFunction "g"
      .unit }

-- No kernel computation looks a name up in an index, so the declarations are performed by
-- their equation.
private theorem run_alternatingRun : ((start [] "m").run alternatingRun).2 =
    (pairDeclared.run (alternatingRun.drop 2)).2 := by
  have hfirst : (start [] "m").perform (.addFunction "f" ⟨.i32, [.i32, .ptr]⟩) = .ok (_, _) :=
    perform_addFunction _ Std.HashMap.contains_empty
  have hfresh : ((({ name := "m" } : Module).pushFunction "f"
      ⟨.i32, [.i32, .ptr]⟩).functionIndex.contains "g") = false := by
    rw [Module.pushFunction, Std.HashMap.contains_insert, Std.HashMap.contains_empty]
    decide
  rw [alternatingRun, run_cons hfirst, run_cons (perform_addFunction .unit hfresh)]
  rfl

/-- The first function of the run is printed with the numbers of its values. -/
theorem exists_isNumberedText_of_alternatingRun :
    let m := ((start [] "m").run alternatingRun).2.module
    ∃ text f lines, m.assembly? = some text ∧ m.function? ⟨0⟩ = some f ∧
      f.isDeclaration = false ∧ IsNumberedText m ⟨0⟩ f lines := by
  intro m
  have hrun : m = (pairDeclared.run (alternatingRun.drop 2)).2.module :=
    congrArg Session.module run_alternatingRun
  have hprinted : m.assembly?.isSome := by
    rw [hrun]
    decide +kernel
  have hdefined : (m.function? ⟨0⟩).any (!·.isDeclaration) = true := by
    rw [hrun]
    decide +kernel
  obtain ⟨text, htext⟩ := Option.isSome_iff_exists.mp hprinted
  obtain ⟨f, hf, hdefinition⟩ := (Option.any_eq_true _ _).mp hdefined
  rw [Bool.not_eq_true'] at hdefinition
  obtain ⟨paragraphs, rest, -, -, hfunctions⟩ :=
    exists_isNumberedText [] "m" alternatingRun htext
  obtain ⟨lines, -, hlines⟩ := hfunctions ⟨0⟩ f hf hdefinition
  exact ⟨text, f, lines, htext, hf, hdefinition, hlines⟩

example : (((start [] "m").run alternatingRun).2.module.function? ⟨0⟩).bind
    (function? ((start [] "m").run alternatingRun).2.module) = some
      ["define i32 @f(i32, ptr) \x7b", "entry:", "  call void @g()",
        "  %2 = call i32 @f(i32 %3, void undef)", "", "exit:",
        "  %3 = call i32 @f(i32 %2, i32 7)", "  ret i32 undef", "\x7d"] := by
  rw [run_alternatingRun]
  decide +kernel

end Session

end DebugMetadata

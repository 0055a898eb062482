import DebugMetadata.Proofs.Code.Renaming
import DebugMetadata.Proofs.Module.Growth
import Mathlib.Data.List.Basic

/-!
# Selected instructions

A module can be cut down to some of its instructions, which are then numbered
anew in the order in which they are listed.  An instruction that is pushed and
not listed leaves no trace; one that is listed last is pushed to what was
selected before.
-/

namespace DebugMetadata

/-- The place of an instruction in a list, as a handle. -/
def rankIn (ids : List InstrId) (id : InstrId) : InstrId := ⟨ids.idxOf id⟩

variable {ids : List InstrId} {id : InstrId}

theorem rankIn_append_of_mem (h : id ∈ ids) (rest : List InstrId) :
    rankIn (ids ++ rest) id = rankIn ids id := by
  rw [rankIn, rankIn, List.idxOf_append_of_mem h]

theorem rankIn_concat_self (h : id ∉ ids) : rankIn (ids ++ [id]) id = ⟨ids.length⟩ := by
  rw [rankIn, List.idxOf_append_of_notMem h, List.idxOf_cons_self, Nat.add_zero]

theorem rankIn_injOn {other : InstrId} (h : id ∈ ids)
    (heq : rankIn ids id = rankIn ids other) : id = other := by
  have hidx : ids.idxOf id = ids.idxOf other := congrArg InstrId.index heq
  exact (List.idxOf_inj h).mp hidx

/-- The block with only the listed instructions, under their places in the list. -/
def Block.keep (b : Block) (ids : List InstrId) : Block :=
  { b with instrs := ((b.instrs.toList.filter (· ∈ ids)).map (rankIn ids)).toArray }

namespace Module

/-- The module with only the listed instructions, under their places in the
list. -/
def keep (m : Module) (ids : List InstrId) : Module :=
  { m with
    blocks := m.blocks.map (·.keep ids)
    instructions := ((ids.filterMap m.instruction?).map (·.rename (rankIn ids))).toArray }

/-- The listed instructions can stand without the others: they exist, and they
use the results of one another only. -/
structure Closed (m : Module) (ids : List InstrId) : Prop where
  listed : ∀ id ∈ ids, id.index < m.instructions.size
  placed : ∀ b ∈ m.blocks, ∀ id ∈ b.instrs, id.index < m.instructions.size
  uses : ∀ id ∈ ids, ∀ i ∈ m.instruction? id, ∀ used ∈ i.operation.uses, used ∈ ids

variable {m : Module} {i : Instruction}

namespace Closed

theorem not_mem (h : m.Closed ids) : (⟨m.instructions.size⟩ : InstrId) ∉ ids := by
  intro hmem
  exact Nat.lt_irrefl _ (h.listed _ hmem)

theorem instruction?_push (h : m.Closed ids) (i : Instruction) (hid : id ∈ ids) :
    (m.pushInstruction i).instruction? id = m.instruction? id :=
  instruction?_pushInstruction_of_lt (h.listed id hid)

theorem filterMap_push (h : m.Closed ids) (i : Instruction) :
    ids.filterMap (m.pushInstruction i).instruction? = ids.filterMap m.instruction? :=
  List.filterMap_congr fun _ hid => h.instruction?_push i hid

theorem size_keep (h : m.Closed ids) : (m.keep ids).instructions.size = ids.length := by
  have hsome : ∀ id ∈ ids, (m.instruction? id).isSome := by
    intro id hid
    rw [instruction?, Array.getElem?_eq_getElem (h.listed id hid)]
    rfl
  rw [keep, List.size_toArray, List.length_map, List.filterMap_length_eq_length.mpr hsome]

private theorem getElem?_filterMap (h : m.Closed ids) (n : Nat) :
    (ids.filterMap m.instruction?)[n]? = ids[n]?.bind m.instruction? := by
  have hlt := h.listed
  clear h
  induction ids generalizing n with
  | nil => rfl
  | cons id ids ih =>
      obtain ⟨i, hid⟩ := exists_instruction? (hlt id List.mem_cons_self)
      rw [List.filterMap_cons_some hid]
      cases n with
      | zero => exact hid.symm
      | succ n => exact ih n fun id hid => hlt id (List.mem_cons_of_mem _ hid)

theorem instruction?_keep (h : m.Closed ids) (hid : id ∈ ids) :
    (m.keep ids).instruction? (rankIn ids id) =
      (m.instruction? id).map (·.rename (rankIn ids)) := by
  have hidx : ids[ids.idxOf id]? = some id := by
    exact List.getElem?_idxOf hid
  change ((ids.filterMap m.instruction?).map _).toArray[ids.idxOf id]? = _
  rw [List.getElem?_toArray, List.getElem?_map, h.getElem?_filterMap, hidx]
  rfl

theorem map_rename_push (h : m.Closed ids) (rest : List InstrId) :
    (ids.filterMap m.instruction?).map (·.rename (rankIn (ids ++ rest))) =
      (ids.filterMap m.instruction?).map (·.rename (rankIn ids)) := by
  apply List.map_congr_left
  intro i hi
  obtain ⟨id, hid, hget⟩ := List.mem_filterMap.mp hi
  have hoperation : i.operation.rename (rankIn (ids ++ rest)) =
      i.operation.rename (rankIn ids) := by
    apply Operation.rename_congr
    intro used hused
    exact rankIn_append_of_mem (h.uses id hid i hget used hused) rest
  rw [Instruction.rename, Instruction.rename, hoperation]

theorem keep_block (h : m.Closed ids) {b : Block} (hb : b ∈ m.blocks) :
    b.keep (ids ++ [⟨m.instructions.size⟩]) = b.keep ids := by
  have hfilter : b.instrs.toList.filter (· ∈ ids ++ [⟨m.instructions.size⟩]) =
      b.instrs.toList.filter (· ∈ ids) := by
    apply List.filter_congr
    intro id hid
    have hlt := h.placed b hb id (Array.mem_toList_iff.mp hid)
    have hne : id ≠ ⟨m.instructions.size⟩ := by
      intro heq
      subst heq
      exact Nat.lt_irrefl _ hlt
    simp [hne]
  have hmap : (b.instrs.toList.filter (· ∈ ids)).map
      (rankIn (ids ++ [⟨m.instructions.size⟩])) =
      (b.instrs.toList.filter (· ∈ ids)).map (rankIn ids) := by
    apply List.map_congr_left
    intro id hid
    exact rankIn_append_of_mem (by simpa using (List.mem_filter.mp hid).2) _
  rw [Block.keep, Block.keep, hfilter, hmap]

/-! ## Growth -/

theorem keep_pushInstruction (h : m.Closed ids) (i : Instruction) :
    (m.pushInstruction i).keep ids = m.keep ids := by
  have hblocks : (m.pushInstruction i).blocks.map (·.keep ids) = m.blocks.map (·.keep ids) := by
    rw [blocks_pushInstruction]
    apply map_modify_of_eq
    intro b
    have hfilter : [(⟨m.instructions.size⟩ : InstrId)].filter (· ∈ ids) = [] := by
      simpa using h.not_mem
    rw [Block.keep, Block.keep, Array.toList_push, List.filter_append, hfilter, List.append_nil]
  rw [keep, keep, hblocks, h.filterMap_push]
  rfl

/-- An instruction that is listed last is pushed to what was kept before. -/
theorem keep_pushInstruction_concat (h : m.Closed ids) (i : Instruction)
    (huses : ∀ used ∈ i.operation.uses, used ∈ ids) :
    (m.pushInstruction i).keep (ids ++ [⟨m.instructions.size⟩]) =
      (m.keep ids).pushInstruction (i.rename (rankIn ids)) := by
  have hblocks : (m.pushInstruction i).blocks.map (·.keep (ids ++ [⟨m.instructions.size⟩])) =
      (m.blocks.map (·.keep ids)).modify i.block.index fun b =>
        { b with instrs := b.instrs.push ⟨ids.length⟩ } := by
    rw [← Array.map_congr_left fun b hb => h.keep_block hb, blocks_pushInstruction]
    apply map_modify
    intro b
    have hfilter : [(⟨m.instructions.size⟩ : InstrId)].filter
        (· ∈ ids ++ [⟨m.instructions.size⟩]) = [⟨m.instructions.size⟩] := by
      simp
    simp only [Block.keep, Array.toList_push, List.filter_append, hfilter, List.map_append,
      List.map_singleton, rankIn_concat_self h.not_mem, List.push_toArray]
  have hlast : i.rename (rankIn (ids ++ [⟨m.instructions.size⟩])) = i.rename (rankIn ids) := by
    rw [Instruction.rename, Instruction.rename]
    congr 1
    apply Operation.rename_congr
    intro used hused
    exact rankIn_append_of_mem (huses used hused) _
  have hnew : [(⟨m.instructions.size⟩ : InstrId)].filterMap
      (m.pushInstruction i).instruction? = [i] :=
    List.filterMap_cons_some (instruction?_pushInstruction_size m i)
  have hpush : (m.keep ids).pushInstruction (i.rename (rankIn ids)) =
      { m.keep ids with
        instructions := (m.keep ids).instructions.push (i.rename (rankIn ids))
        blocks := (m.keep ids).blocks.modify i.block.index fun b =>
          { b with instrs := b.instrs.push ⟨ids.length⟩ } } := by
    rw [pushInstruction, h.size_keep]
    rfl
  rw [hpush, keep, hblocks, List.filterMap_append, h.filterMap_push, hnew, List.map_append,
    h.map_rename_push, List.map_singleton, hlast, ← List.push_toArray]
  rfl

theorem pushInstruction (h : m.Closed ids) (i : Instruction) :
    (m.pushInstruction i).Closed ids := by
  have hsize : (m.pushInstruction i).instructions.size = m.instructions.size + 1 :=
    Array.size_push _
  refine ⟨?_, ?_, ?_⟩
  · intro id hid
    have hlt := h.listed id hid
    omega
  · intro b hb id hid
    rw [hsize]
    obtain ⟨n, hn⟩ := Array.mem_iff_getElem?.mp hb
    rw [blocks_pushInstruction, Array.getElem?_modify] at hn
    split at hn
    · obtain ⟨b', hb', rfl⟩ := Option.map_eq_some_iff.mp hn
      rcases Array.mem_push.mp hid with hid | rfl
      · have hlt := h.placed b' (Array.mem_of_getElem? hb') id hid
        omega
      · exact Nat.lt_succ_self _
    · have hlt := h.placed b (Array.mem_of_getElem? hn) id hid
      omega
  · intro id hid i' hi'
    rw [h.instruction?_push i hid] at hi'
    exact h.uses id hid i' hi'

theorem pushInstruction_concat (h : m.Closed ids) {i : Instruction}
    (huses : ∀ used ∈ i.operation.uses, used ∈ ids) :
    (m.pushInstruction i).Closed (ids ++ [⟨m.instructions.size⟩]) := by
  refine ⟨?_, (h.pushInstruction i).placed, ?_⟩
  · intro id hid
    rcases List.mem_append.mp hid with hid | hid
    · exact (h.pushInstruction i).listed id hid
    · rw [List.mem_singleton.mp hid]
      change m.instructions.size < (m.instructions.push i).size
      rw [Array.size_push]
      exact Nat.lt_succ_self _
  · intro id hid i' hi' used hused
    rw [List.mem_append]
    left
    rcases List.mem_append.mp hid with hid | hid
    · exact (h.pushInstruction i).uses id hid i' hi' used hused
    · rw [List.mem_singleton.mp hid, instruction?_pushInstruction_size] at hi'
      cases hi'
      exact huses used hused

theorem graph (h : m.Closed ids) (graph : Graph) : Closed { m with graph } ids :=
  ⟨h.listed, h.placed, h.uses⟩

theorem pushFunction (h : m.Closed ids) (name : String) (signature : Signature) :
    (m.pushFunction name signature).Closed ids :=
  ⟨h.listed, h.placed, h.uses⟩

theorem pushBlock (h : m.Closed ids) (function : FunctionId) (label : String) :
    (m.pushBlock function label).Closed ids := by
  refine ⟨h.listed, ?_, h.uses⟩
  intro b hb id hid
  rcases Array.mem_push.mp hb with hb | rfl
  · exact h.placed b hb id hid
  · cases hid with
    | mk hid => cases hid

end Closed

theorem block?_keep (m : Module) (ids : List InstrId) (id : BlockId) :
    (m.keep ids).block? id = (m.block? id).map (·.keep ids) :=
  Array.getElem?_map

/-- What is kept of a function is what is kept of its blocks. -/
theorem functionInstrs?_keep (m : Module) (ids : List InstrId) (id : FunctionId) :
    (m.keep ids).functionInstrs? id =
      (m.functionInstrs? id).map fun instrs => (instrs.filter (· ∈ ids)).map (rankIn ids) := by
  have hblocks : ∀ l : List BlockId, l.mapM (m.keep ids).block? =
      (l.mapM m.block?).map (List.map (·.keep ids)) := by
    intro l
    induction l with
    | nil => rfl
    | cons b l ih =>
        rw [List.mapM_cons, List.mapM_cons, ih, block?_keep]
        cases m.block? b with
        | none => rfl
        | some b => cases l.mapM m.block? <;> rfl
  simp only [functionInstrs?, Option.bind_eq_bind, Option.map_bind, hblocks]
  congr 1
  funext g
  rw [Function.comp_apply]
  cases g.blocks.toList.mapM m.block? with
  | none => rfl
  | some blocks =>
      have hflat : (blocks.map (·.keep ids)).flatMap (·.instrs.toList) =
          ((blocks.flatMap (·.instrs.toList)).filter (· ∈ ids)).map (rankIn ids) := by
        rw [List.flatMap_map, List.filter_flatMap, List.map_flatMap]
        rfl
      exact congrArg some hflat

theorem keep_graph (m : Module) (ids : List InstrId) (graph : Graph) :
    keep { m with graph } ids = { m.keep ids with graph } := rfl

theorem keep_pushFunction (m : Module) (ids : List InstrId) (name : String)
    (signature : Signature) :
    (m.pushFunction name signature).keep ids = (m.keep ids).pushFunction name signature := rfl

theorem keep_pushBlock (m : Module) (ids : List InstrId) (function : FunctionId)
    (label : String) :
    (m.pushBlock function label).keep ids = (m.keep ids).pushBlock function label := by
  simp only [keep, pushBlock, Array.map_push, Array.size_map]
  rfl

end Module

end DebugMetadata

import DebugMetadata.Proofs.Arenas.Filing
import DebugMetadata.Proofs.Lists
import DebugMetadata.Proofs.Session.Steps

/-!
# Blocks and instructions in their places

A function lists its blocks and a block its instructions, and each block and each
instruction says where it is.  However a module came about, the two agree: nothing is listed
twice, nothing is left out, and every list is in the order in which its entries were made.
-/

namespace DebugMetadata

namespace Module

variable {m m' : Module}

/-- The functions in the order of their declaration. -/
def functionIds (m : Module) : List FunctionId := (List.range m.functions.size).map FunctionId.mk

/-- The blocks in the order in which they were appended. -/
def blockIds (m : Module) : List BlockId := (List.range m.blocks.size).map BlockId.mk

/-- The instructions in the order in which they were emitted. -/
def instrIds (m : Module) : List InstrId := (List.range m.instructions.size).map InstrId.mk

/-- Functions list exactly the blocks that say to be theirs, and blocks the instructions. -/
structure IsFiled (m : Module) : Prop where
  blocks : Filed BlockId.mk (m.blocks.toList.map (·.function.index))
    (m.functions.toList.map (·.blocks.toList))
  instrs : Filed InstrId.mk (m.instructions.toList.map (·.block.index))
    (m.blocks.toList.map (·.instrs.toList))

/-! ## Steps -/

/-- A push to a list of one element is seen in the lists of all elements. -/
private theorem toList_map_modify_push {α ι : Type} (xs : Array α) (n : Nat) {f : α → α}
    {g : α → Array ι} {x : ι} (h : ∀ a, g (f a) = (g a).push x) :
    (xs.modify n f).toList.map (fun a => (g a).toList) =
      (xs.toList.map fun a => (g a).toList).modify n (· ++ [x]) := by
  have hpush : ∀ a, (g (f a)).toList = (g a).toList ++ [x] := by
    intro a
    rw [h a, Array.toList_push]
  have hmodify : (xs.modify n f).map (fun a => (g a).toList) =
      (xs.map fun a => (g a).toList).modify n (· ++ [x]) := map_modify xs n hpush
  rw [← Array.toList_map, ← Array.toList_map, ← Array.toList_modify, hmodify]

namespace IsFiled

theorem empty (name : String) : ({ name } : Module).IsFiled := ⟨.nil, .nil⟩

theorem pushFunction (h : m.IsFiled) (name : String) (signature : Signature) :
    (m.pushFunction name signature).IsFiled := by
  refine ⟨?_, h.instrs⟩
  change Filed _ _ ((m.functions.push _).toList.map _)
  rw [Array.toList_push, List.map_append]
  exact h.blocks.concat_file

theorem pushBlock (h : m.IsFiled) {function : FunctionId} (label : String)
    (hlt : function.index < m.functions.size) : (m.pushBlock function label).IsFiled := by
  refine ⟨?_, ?_⟩
  · have hfile : function.index < (m.functions.toList.map (·.blocks.toList)).length := by
      simpa using hlt
    have hfiled := h.blocks.concat hfile
    rw [List.length_map, Array.length_toList] at hfiled
    change Filed _ ((m.blocks.push _).toList.map _) ((m.functions.modify _ _).toList.map _)
    rw [Array.toList_push, List.map_append, toList_map_modify_push]
    · exact hfiled
    · exact fun _ => rfl
  · change Filed _ _ ((m.blocks.push _).toList.map _)
    rw [Array.toList_push, List.map_append]
    exact h.instrs.concat_file

theorem pushInstruction (h : m.IsFiled) {i : Instruction} (hlt : i.block.index < m.blocks.size) :
    (m.pushInstruction i).IsFiled := by
  refine ⟨?_, ?_⟩
  · change Filed _ ((m.blocks.modify _ _).toList.map _) _
    rw [toList_map_modify]
    · exact h.blocks
    · exact fun _ => rfl
  · have hfile : i.block.index < (m.blocks.toList.map (·.instrs.toList)).length := by
      simpa using hlt
    have hfiled := h.instrs.concat hfile
    rw [List.length_map, Array.length_toList] at hfiled
    change Filed _ ((m.instructions.push _).toList.map _) ((m.blocks.modify _ _).toList.map _)
    rw [Array.toList_push, List.map_append, toList_map_modify_push]
    · exact hfiled
    · exact fun _ => rfl

theorem attachToFunction (h : m.IsFiled) (id : FunctionId) (key : String) (node : NodeId) :
    (m.attachToFunction id key node).IsFiled := by
  refine ⟨?_, h.instrs⟩
  change Filed _ _ ((m.functions.modify _ _).toList.map _)
  rw [toList_map_modify]
  · exact h.blocks
  · exact fun _ => rfl

theorem attachToInstruction (h : m.IsFiled) (id : InstrId) (key : String) (node : NodeId) :
    (m.attachToInstruction id key node).IsFiled := by
  refine ⟨h.blocks, ?_⟩
  change Filed _ ((m.instructions.modify _ _).toList.map _) _
  rw [toList_map_modify]
  · exact h.instrs
  · exact fun _ => rfl

theorem step (h : m.IsFiled) (hstep : m.Step m') : m'.IsFiled := by
  cases hstep with
  | filename filename => exact ⟨h.blocks, h.instrs⟩
  | function name signature => exact h.pushFunction name signature
  | block label hlt => exact h.pushBlock label hlt
  | instruction hlt => exact h.pushInstruction hlt
  | attachToFunction function key node => exact h.attachToFunction function key node
  | attachToInstruction instr key node => exact h.attachToInstruction instr key node
  | graph hgrows hnamed => exact ⟨h.blocks, h.instrs⟩

theorem steps (h : m.IsFiled) (hsteps : m.Steps m') : m'.IsFiled := by
  induction hsteps with
  | refl => exact h
  | tail _ hstep ih => exact ih.step hstep

end IsFiled

/-! ## What is listed where -/

/-- The instructions that a block lists, if there is one. -/
def blockInstrs (m : Module) (block : BlockId) : List InstrId :=
  ((m.block? block).map (·.instrs.toList)).getD []

/-- Every block and every instruction is listed where it says that it is, and there only, in
the order in which all of them were made. -/
structure IsConsistent (m : Module) : Prop where
  blocks_perm : (m.functions.toList.flatMap (·.blocks.toList)).Perm m.blockIds
  blocks_eq : ∀ function f, m.function? function = some f →
    f.blocks.toList = m.blockIds.filter fun block =>
      (m.block? block).map (·.function) = some function
  blocks_increase : ∀ function f, m.function? function = some f →
    f.blocks.toList.Pairwise fun block block' => block.index < block'.index
  instrs_perm : (m.blocks.toList.flatMap (·.instrs.toList)).Perm m.instrIds
  instrs_eq : ∀ block b, m.block? block = some b →
    b.instrs.toList = m.instrIds.filter fun instr =>
      (m.instruction? instr).map (·.block) = some block
  instrs_increase : ∀ block b, m.block? block = some b →
    b.instrs.toList.Pairwise fun instr instr' => instr.index < instr'.index
  /-- Together the functions enumerate every instruction once. -/
  functionInstrs : ∃ rows, m.functionIds.mapM m.functionInstrs? = some rows ∧
    rows.flatten.Perm m.instrIds
  declarations : ∀ function f, m.function? function = some f → f.isDeclaration = true →
    m.functionInstrs? function = some []

namespace IsFiled

variable {function : FunctionId} {f : Function} {block : BlockId} {b : Block}

theorem getElem?_blockFiles (hf : m.function? function = some f) :
    (m.functions.toList.map (·.blocks.toList))[function.index]? = some f.blocks.toList := by
  rw [List.getElem?_map, Array.getElem?_toList]
  exact congrArg (Option.map (·.blocks.toList)) hf

theorem getElem?_instrFiles (hb : m.block? block = some b) :
    (m.blocks.toList.map (·.instrs.toList))[block.index]? = some b.instrs.toList := by
  rw [List.getElem?_map, Array.getElem?_toList]
  exact congrArg (Option.map (·.instrs.toList)) hb

theorem blocks_eq (h : m.IsFiled) (hf : m.function? function = some f) :
    f.blocks.toList = m.blockIds.filter fun block =>
      (m.block? block).map (·.function) = some function := by
  have hfile := h.blocks.file_eq_filter (getElem?_blockFiles hf)
    (p := fun block => (m.block? block).map (·.function) = some function)
  rw [List.length_map, Array.length_toList] at hfile
  apply hfile
  intro n
  obtain ⟨index⟩ := function
  rw [decide_eq_true_eq, List.getElem?_map, Array.getElem?_toList, block?]
  cases m.blocks[n]? with
  | none => simp
  | some b =>
      obtain ⟨label, ⟨owner⟩, instrs⟩ := b
      simp

theorem instrs_eq (h : m.IsFiled) (hb : m.block? block = some b) :
    b.instrs.toList = m.instrIds.filter fun instr =>
      (m.instruction? instr).map (·.block) = some block := by
  have hfile := h.instrs.file_eq_filter (getElem?_instrFiles hb)
    (p := fun instr => (m.instruction? instr).map (·.block) = some block)
  rw [List.length_map, Array.length_toList] at hfile
  apply hfile
  intro n
  obtain ⟨index⟩ := block
  rw [decide_eq_true_eq, List.getElem?_map, Array.getElem?_toList, instruction?]
  cases m.instructions[n]? with
  | none => simp
  | some i =>
      obtain ⟨operation, ⟨owner⟩, location, attachments⟩ := i
      simp

/-- An instruction is listed in its own block and in no other one. -/
theorem mem_blockInstrs_iff_block (h : m.IsFiled) {id : InstrId} {i : Instruction}
    (hi : m.instruction? id = some i) : id ∈ m.blockInstrs block ↔ i.block = block := by
  have hid : id ∈ m.instrIds := by
    obtain ⟨hlt, -⟩ := Array.getElem?_eq_some_iff.mp hi
    exact List.mem_map.mpr ⟨id.index, List.mem_range.mpr hlt, rfl⟩
  cases hb : m.block? block with
  | some b =>
      rw [blockInstrs, hb, Option.map_some, Option.getD_some, h.instrs_eq hb, List.mem_filter, hi,
        decide_eq_true_eq, Option.map_some, Option.some.injEq, and_iff_right hid]
  | none =>
      rw [blockInstrs, hb, Option.map_none, Option.getD_none]
      refine iff_of_false List.not_mem_nil ?_
      rintro rfl
      have howner : i.block.index ∈ m.instructions.toList.map (·.block.index) :=
        List.mem_map.mpr ⟨i, Array.mem_toList_iff.mpr (Array.mem_of_getElem? hi), rfl⟩
      have hlt := h.instrs.lt _ howner
      rw [List.length_map, Array.length_toList] at hlt
      exact absurd hlt (Nat.not_lt.mpr (Array.getElem?_eq_none_iff.mp hb))

theorem exists_block? (h : m.IsFiled) (hf : m.function? function = some f)
    (hblock : block ∈ f.blocks.toList) : ∃ b, m.block? block = some b := by
  rw [h.blocks_eq hf, List.mem_filter, decide_eq_true_eq] at hblock
  obtain ⟨b, hb, -⟩ := Option.map_eq_some_iff.mp hblock.2
  exact ⟨b, hb⟩

/-- Blocks that exist list their instructions one block after another. -/
theorem mapM_block? {blocks : List BlockId}
    (h : ∀ block ∈ blocks, ∃ b, m.block? block = some b) :
    (blocks.mapM m.block?).map (List.flatMap (·.instrs.toList)) =
      some (blocks.flatMap m.blockInstrs) := by
  induction blocks with
  | nil => rfl
  | cons block rest ih =>
      obtain ⟨b, hb⟩ := h block List.mem_cons_self
      have hrest := ih fun other hother => h other (List.mem_cons_of_mem block hother)
      obtain ⟨bs, hbs, hinstrs⟩ := Option.map_eq_some_iff.mp hrest
      have hinstr : m.blockInstrs block = b.instrs.toList := by
        rw [blockInstrs, hb]
        rfl
      rw [List.mapM_cons, hb, hbs, List.flatMap_cons, ← hinstrs, hinstr]
      rfl

theorem functionInstrs?_eq (h : m.IsFiled) (hf : m.function? function = some f) :
    m.functionInstrs? function = some (f.blocks.toList.flatMap m.blockInstrs) := by
  have hblocks : ∀ block ∈ f.blocks.toList, ∃ b, m.block? block = some b :=
    fun block hblock => h.exists_block? hf hblock
  obtain ⟨bs, hbs, hinstrs⟩ := Option.map_eq_some_iff.mp (mapM_block? hblocks)
  rw [functionInstrs?, hf, ← hinstrs]
  exact congrArg (Option.bind · fun bs => some (bs.flatMap (·.instrs.toList))) hbs

theorem mapM_functionInstrs? (h : m.IsFiled) :
    m.functionIds.mapM m.functionInstrs? =
      some (m.functions.toList.map fun f => f.blocks.toList.flatMap m.blockInstrs) := by
  rw [mapM_eq_some_iff, functionIds, List.forall₂_map_left_iff, List.forall₂_map_right_iff,
    List.forall₂_iff_get]
  refine ⟨?_, ?_⟩
  · rw [List.length_range, Array.length_toList]
  · intro n hn hn'
    apply h.functionInstrs?_eq
    rw [List.get_eq_getElem, List.get_eq_getElem, List.getElem_range, function?,
      ← Array.getElem?_toList]
    exact List.getElem?_eq_getElem hn'

theorem map_blockInstrs (m : Module) :
    m.blockIds.map m.blockInstrs = m.blocks.toList.map (·.instrs.toList) := by
  apply List.ext_getElem
  · rw [blockIds, List.length_map, List.length_map, List.length_range, List.length_map,
      Array.length_toList]
  · intro n hn hn'
    rw [List.length_map, Array.length_toList] at hn'
    simp [blockIds, blockInstrs, block?, Array.getElem?_eq_getElem hn']

theorem blocks_perm (h : m.IsFiled) :
    (m.functions.toList.flatMap (·.blocks.toList)).Perm m.blockIds := by
  have hperm := h.blocks.flatten_perm
  rwa [List.length_map, Array.length_toList, ← List.flatMap_def] at hperm

theorem instrs_perm (h : m.IsFiled) :
    (m.blocks.toList.flatMap (·.instrs.toList)).Perm m.instrIds := by
  have hperm := h.instrs.flatten_perm
  rwa [List.length_map, Array.length_toList, ← List.flatMap_def] at hperm

theorem rows_perm (h : m.IsFiled) :
    (m.functions.toList.map fun f => f.blocks.toList.flatMap m.blockInstrs).flatten.Perm
      m.instrIds := by
  have hrows : (m.functions.toList.map fun f => f.blocks.toList.flatMap m.blockInstrs).flatten =
      (m.functions.toList.flatMap (·.blocks.toList)).flatMap m.blockInstrs := by
    rw [← List.flatMap_def, List.flatMap_assoc]
  have hblocks : m.blockIds.flatMap m.blockInstrs =
      m.blocks.toList.flatMap (·.instrs.toList) := by
    rw [List.flatMap_def, map_blockInstrs, ← List.flatMap_def]
  rw [hrows]
  refine (h.blocks_perm.flatMap_right m.blockInstrs).trans ?_
  rw [hblocks]
  exact h.instrs_perm

theorem isConsistent (h : m.IsFiled) : m.IsConsistent where
  blocks_perm := h.blocks_perm
  blocks_eq _ _ hf := h.blocks_eq hf
  blocks_increase _ _ hf := h.blocks.file_pairwise (getElem?_blockFiles hf) fun _ => rfl
  instrs_perm := h.instrs_perm
  instrs_eq _ _ hb := h.instrs_eq hb
  instrs_increase _ _ hb := h.instrs.file_pairwise (getElem?_instrFiles hb) fun _ => rfl
  functionInstrs := ⟨_, h.mapM_functionInstrs?, h.rows_perm⟩
  declarations function f hf hdeclaration := by
    have hempty : f.blocks = #[] := Array.isEmpty_iff.mp hdeclaration
    rw [h.functionInstrs?_eq hf, hempty]
    rfl

end IsFiled

end Module

/-- Whatever was done to a session, its module has its blocks and its instructions in their
places. -/
theorem Session.isConsistent_run (workingDirectory : List UInt8) (name : String)
    (commands : List Command) :
    ((start workingDirectory name).run commands).2.module.IsConsistent := by
  have hsteps := (start workingDirectory name).steps_run commands
  exact ((Module.IsFiled.empty name).steps hsteps).isConsistent

end DebugMetadata

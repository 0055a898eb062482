import DebugMetadata.Module.Lemmas

/-!
# How a module grows

The operations that grow a module as equations, for arguments that exist, and the
part of the module that only declarations and new blocks change.
-/

namespace DebugMetadata.Module

/-! ## Elements made anew -/

/-- Making an element anew and then viewing is viewing and then making anew. -/
theorem map_modify {α β : Type} (xs : Array α) (n : Nat) {f : α → α} {f' : β → β} {g : α → β}
    (h : ∀ x, g (f x) = f' (g x)) : (xs.modify n f).map g = (xs.map g).modify n f' := by
  apply Array.ext_getElem?
  intro k
  rw [Array.getElem?_map, Array.getElem?_modify, Array.getElem?_modify, Array.getElem?_map]
  by_cases hk : n = k
  · rw [if_pos hk, if_pos hk, Option.map_map, Option.map_map]
    congr 1
    funext x
    exact h x
  · rw [if_neg hk, if_neg hk]

/-- A view that does not see the change is the same after it. -/
theorem map_modify_of_eq {α β : Type} (xs : Array α) (n : Nat) {f : α → α} {g : α → β}
    (h : ∀ x, g (f x) = g x) : (xs.modify n f).map g = xs.map g := by
  rw [map_modify xs n (show ∀ x, g (f x) = id (g x) from h)]
  apply Array.ext_getElem?
  intro k
  rw [Array.getElem?_modify]
  by_cases hk : n = k
  · rw [if_pos hk, Option.map_id, id]
  · rw [if_neg hk]

theorem modify_eq_self {α : Type} {xs : Array α} {n : Nat} {f : α → α}
    (h : ∀ x, xs[n]? = some x → f x = x) : xs.modify n f = xs := by
  apply Array.ext_getElem?
  intro k
  rw [Array.getElem?_modify]
  by_cases hk : n = k
  · subst hk
    rw [if_pos rfl]
    cases hn : xs[n]? with
    | none => rfl
    | some x => rw [Option.map_some, h x hn]
  · rw [if_neg hk]

theorem toList_map_modify {α β : Type} (xs : Array α) (n : Nat) {f : α → α} {g : α → β}
    (h : ∀ x, g (f x) = g x) : (xs.modify n f).toList.map g = xs.toList.map g := by
  rw [← Array.toList_map, map_modify_of_eq xs n h, Array.toList_map]

/-! ## Growth -/

/-- The module with an instruction at the end of the block it names. -/
def pushInstruction (m : Module) (i : Instruction) : Module :=
  { m with
    instructions := m.instructions.push i
    blocks := m.blocks.modify i.block.index fun b =>
      { b with instrs := b.instrs.push ⟨m.instructions.size⟩ } }

/-- The module with a block at the end of a function. -/
def pushBlock (m : Module) (function : FunctionId) (label : String) : Module :=
  { m with
    blocks := m.blocks.push { label, function }
    functions := m.functions.modify function.index fun f =>
      { f with blocks := f.blocks.push ⟨m.blocks.size⟩ } }

/-- The module with another function. -/
def pushFunction (m : Module) (name : String) (signature : Signature) : Module :=
  { m with
    functions := m.functions.push { name, signature }
    functionIndex := m.functionIndex.insert name ⟨m.functions.size⟩ }

variable {m m' : Module}

theorem addFunction_of_not_contains {name : String} {signature : Signature}
    (h : m.functionIndex.contains name = false) :
    m.addFunction name signature = .ok (⟨m.functions.size⟩, m.pushFunction name signature) := by
  rw [addFunction, if_neg (by simp [h])]
  rfl

theorem appendBlock?_of_lt {function : FunctionId} {label : String}
    (h : function.index < m.functions.size) :
    m.appendBlock? function label = some (⟨m.blocks.size⟩, m.pushBlock function label) := by
  rw [appendBlock?, if_pos h]
  rfl

theorem appendInstruction?_of_lt {i : Instruction} (h : i.block.index < m.blocks.size) :
    m.appendInstruction? i = some (⟨m.instructions.size⟩, m.pushInstruction i) := by
  rw [appendInstruction?, if_pos h]
  rfl

theorem emit?_of_lt {c : Cursor} (operation : Operation) (h : c.block.index < m.blocks.size) :
    m.emit? c operation =
      some (⟨m.instructions.size⟩,
        m.pushInstruction { operation, block := c.block, location := c.location }) :=
  appendInstruction?_of_lt h

/-- An attachment to the instruction that was pushed last is pushed with it. -/
theorem attachToInstruction_pushInstruction (m : Module) (i : Instruction) (key : String)
    (node : NodeId) :
    (m.pushInstruction i).attachToInstruction ⟨m.instructions.size⟩ key node =
      m.pushInstruction (i.attach key node) := by
  have hmodify : (m.instructions.push i).modify m.instructions.size (·.attach key node) =
      m.instructions.push (i.attach key node) := by
    apply Array.ext
    · simp
    · intro n h h'
      rw [Array.getElem_modify, Array.getElem_push, Array.getElem_push]
      have hn : n < m.instructions.size + 1 := by simpa using h'
      by_cases hlast : m.instructions.size = n
      · simp [hlast]
      · rw [if_neg hlast, dif_pos (by omega), dif_pos (by omega)]
  rw [attachToInstruction, pushInstruction, hmodify]
  rfl

/-! ## The last instruction -/

variable {i i' : Instruction} {id : InstrId}

theorem exists_instruction? (h : id.index < m.instructions.size) :
    ∃ i, m.instruction? id = some i :=
  ⟨_, Array.getElem?_eq_getElem h⟩

theorem instruction?_pushInstruction_of_lt (h : id.index < m.instructions.size) :
    (m.pushInstruction i).instruction? id = m.instruction? id :=
  Array.getElem?_push_lt h |>.trans (Array.getElem?_eq_getElem h).symm

theorem instruction?_pushInstruction_size (m : Module) (i : Instruction) :
    (m.pushInstruction i).instruction? ⟨m.instructions.size⟩ = some i :=
  Array.getElem?_push_size

theorem instruction?_pushInstruction_of_some (h : m.instruction? id = some i') :
    (m.pushInstruction i).instruction? id = some i' := by
  obtain ⟨hlt, -⟩ := Array.getElem?_eq_some_iff.mp h
  rw [instruction?_pushInstruction_of_lt hlt]
  exact h

/-- An instruction found after a push is the one that was pushed or was there. -/
theorem instruction?_push_cases
    (h : (m.pushInstruction i).instruction? id = some i') :
    id = ⟨m.instructions.size⟩ ∧ i' = i ∨ m.instruction? id = some i' := by
  rw [instruction?] at h
  change (m.instructions.push i)[id.index]? = some i' at h
  rw [Array.getElem?_push] at h
  split at h
  next hindex =>
    obtain ⟨index⟩ := id
    exact .inl ⟨congrArg InstrId.mk hindex, (Option.some.inj h).symm⟩
  next => exact .inr h

theorem size_pushInstruction (m : Module) (i : Instruction) :
    (m.pushInstruction i).instructions.size = m.instructions.size + 1 :=
  Array.size_push _

theorem graph_pushInstruction (m : Module) (i : Instruction) :
    (m.pushInstruction i).graph = m.graph := rfl

theorem blocks_pushInstruction (m : Module) (i : Instruction) :
    (m.pushInstruction i).blocks = m.blocks.modify i.block.index fun b =>
      { b with instrs := b.instrs.push ⟨m.instructions.size⟩ } := rfl

/-! ## Functions by handle -/

theorem exists_function? {function : FunctionId} (h : function.index < m.functions.size) :
    ∃ f, m.function? function = some f :=
  ⟨_, Array.getElem?_eq_getElem h⟩

theorem function?_graph (m : Module) (graph : Graph) (function : FunctionId) :
    { m with graph }.function? function = m.function? function := rfl

theorem function?_pushFunction_of_some {function : FunctionId} {f : Function} {name : String}
    {signature : Signature} (h : m.function? function = some f) :
    (m.pushFunction name signature).function? function = some f := by
  obtain ⟨hlt, -⟩ := Array.getElem?_eq_some_iff.mp h
  exact (Array.getElem?_push_lt hlt).trans ((Array.getElem?_eq_getElem hlt).symm.trans h)

theorem function?_pushBlock_of_some {function : FunctionId} {f : Function}
    (h : m.function? function = some f) (other : FunctionId) (label : String) :
    ∃ f', (m.pushBlock other label).function? function = some f' ∧
      f'.attachments = f.attachments ∧ f'.name = f.name := by
  change ∃ f', (m.functions.modify other.index _)[function.index]? = some f' ∧ _
  rw [Array.getElem?_modify]
  by_cases hindex : other.index = function.index
  · rw [if_pos hindex]
    change m.functions[function.index]? = some f at h
    rw [h]
    exact ⟨_, rfl, rfl, rfl⟩
  · rw [if_neg hindex]
    exact ⟨f, h, rfl, rfl⟩

/-! ## The frame of a module -/

/-- The names of the functions in the order of their declaration. -/
def names (m : Module) : List String := m.functions.toList.map (·.name)

/-- The function of each block. -/
def owners (m : Module) : List FunctionId := m.blocks.toList.map (·.function)

/-- The function that an instruction is in. -/
def owner? (m : Module) (id : InstrId) : Option FunctionId := do
  let i ← m.instruction? id
  (m.block? i.block).map (·.function)

theorem owner?_eq_bind (m : Module) (id : InstrId) :
    m.owner? id =
      ((m.instruction? id).map (·.block)).bind fun b => (m.block? b).map (·.function) := by
  rw [Option.bind_map]
  rfl

/-- The two modules have the same functions by name and the same blocks by
function. -/
structure SameFrame (m m' : Module) : Prop where
  names : m'.names = m.names
  index : m'.functionIndex = m.functionIndex
  owners : m'.owners = m.owners

theorem SameFrame.refl (m : Module) : SameFrame m m := ⟨rfl, rfl, rfl⟩

theorem SameFrame.symm (h : SameFrame m m') : SameFrame m' m :=
  ⟨h.names.symm, h.index.symm, h.owners.symm⟩

theorem SameFrame.trans {m₁ m₂ m₃ : Module} (h : SameFrame m₁ m₂) (h' : SameFrame m₂ m₃) :
    SameFrame m₁ m₃ :=
  ⟨h'.names.trans h.names, h'.index.trans h.index, h'.owners.trans h.owners⟩

theorem sameFrame_graph (m : Module) (graph : Graph) : SameFrame m { m with graph } :=
  ⟨rfl, rfl, rfl⟩

theorem sameFrame_attachToFunction (m : Module) (id : FunctionId) (key : String)
    (node : NodeId) : SameFrame m (m.attachToFunction id key node) :=
  ⟨toList_map_modify _ _ fun _ => rfl, rfl, rfl⟩

theorem sameFrame_pushInstruction (m : Module) (i : Instruction) :
    SameFrame m (m.pushInstruction i) :=
  ⟨rfl, rfl, toList_map_modify _ _ fun _ => rfl⟩

theorem names_pushFunction (m : Module) (name : String) (signature : Signature) :
    (m.pushFunction name signature).names = m.names ++ [name] := by
  simp [pushFunction, names]

theorem names_pushBlock (m : Module) (function : FunctionId) (label : String) :
    (m.pushBlock function label).names = m.names :=
  toList_map_modify _ _ fun _ => rfl

theorem owners_pushBlock (m : Module) (function : FunctionId) (label : String) :
    (m.pushBlock function label).owners = m.owners ++ [function] := by
  simp [pushBlock, owners]

theorem length_names (m : Module) : m.names.length = m.functions.size := by
  simp [names]

theorem length_owners (m : Module) : m.owners.length = m.blocks.size := by
  simp [owners]

theorem getElem?_names (m : Module) (id : FunctionId) :
    m.names[id.index]? = (m.function? id).map (·.name) := by
  simp [names, function?]

theorem getElem?_owners (m : Module) (id : BlockId) :
    m.owners[id.index]? = (m.block? id).map (·.function) := by
  simp [owners, block?]

/-! ## Functions by name -/

/-- Every function is found by its name, and nothing else is. -/
def Named (m : Module) : Prop :=
  ∀ name id, m.findFunction? name = some id ↔ m.names[id.index]? = some name

theorem named_empty (name : String) : ({ name } : Module).Named := by
  intro other id
  exact iff_of_false (by simp [findFunction?]) (by simp [names])

theorem Named.findFunction?_name (h : m.Named) {function : FunctionId} {f : Function}
    (hf : m.function? function = some f) : m.findFunction? f.name = some function := by
  rw [h, getElem?_names, hf]
  rfl

theorem Named.of_sameFrame (h : m.Named) (hframe : SameFrame m m') : m'.Named := by
  intro name id
  rw [findFunction?, hframe.index, hframe.names]
  exact h name id

theorem Named.contains_iff (h : m.Named) (name : String) :
    m.functionIndex.contains name = true ↔ name ∈ m.names := by
  rw [← Std.HashMap.isSome_getElem?_eq_contains, Option.isSome_iff_exists, List.mem_iff_getElem?]
  constructor
  · rintro ⟨id, hid⟩
    exact ⟨id.index, (h name id).mp hid⟩
  · rintro ⟨n, hn⟩
    exact ⟨⟨n⟩, (h name ⟨n⟩).mpr hn⟩

theorem Named.pushFunction (h : m.Named) {name : String} (signature : Signature)
    (hfresh : name ∉ m.names) : (m.pushFunction name signature).Named := by
  intro other id
  rw [names_pushFunction, findFunction?]
  change (m.functionIndex.insert name ⟨m.functions.size⟩)[other]? = some id ↔ _
  rw [Std.HashMap.getElem?_insert, ← length_names]
  by_cases hother : name = other
  · subst hother
    rw [if_pos (by simp), Option.some.injEq]
    constructor
    · intro hid
      subst hid
      exact List.getElem?_concat_length
    · intro hid
      rcases Nat.lt_or_ge id.index m.names.length with hlt | hge
      · rw [List.getElem?_append_left hlt] at hid
        exact absurd (List.mem_of_getElem? hid) hfresh
      · obtain ⟨hlt, -⟩ := List.getElem?_eq_some_iff.mp hid
        rw [List.length_append, List.length_singleton] at hlt
        obtain ⟨index⟩ := id
        congr 1
        simp only at hlt hge
        omega
  · rw [if_neg (by simpa using hother)]
    change m.findFunction? other = some id ↔ _
    rw [h other id]
    rcases Nat.lt_or_ge id.index m.names.length with hlt | hge
    · rw [List.getElem?_append_left hlt]
    · rw [List.getElem?_eq_none hge, List.getElem?_append_right hge]
      constructor
      · intro hnone
        cases hnone
      · intro hname
        have hmem := List.mem_of_getElem? hname
        rw [List.mem_singleton] at hmem
        exact absurd hmem.symm hother

theorem Named.pushBlock (h : m.Named) (function : FunctionId) (label : String) :
    (m.pushBlock function label).Named := by
  intro name id
  rw [names_pushBlock]
  exact h name id

end DebugMetadata.Module

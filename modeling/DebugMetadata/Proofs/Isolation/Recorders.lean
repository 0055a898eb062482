import DebugMetadata.Proofs.Isolation.Ledger

/-!
# The same call in two modules

A recorder that is told the same in two modules which differ in handles alone does the
same in both: the calls fail together, and where they succeed the modules and the
recorders still differ in handles alone.
-/

namespace DebugMetadata

variable {R R' : NodeId → NodeId → Prop} {L L' : ListId → ListId → Prop}

/-! ## Calls that agree -/

/-- Both calls succeed with related results, or both fail.  Only a dangling handle ends a
run, so they must meet one together. -/
inductive Agree {α β : Type} (S : α → β → Prop) : Except Fault α → Except Fault β → Prop where
  | ok {a : α} {b : β} (h : S a b) : Agree S (.ok a) (.ok b)
  | error {fault fault' : Fault} (h : fault = .dangling ↔ fault' = .dangling) :
    Agree S (.error fault) (.error fault')

namespace Agree

variable {α β γ δ : Type} {S : α → β → Prop} {T : γ → δ → Prop} {x : Except Fault α}
  {y : Except Fault β}

theorem refl_error (fault : Fault) : Agree S (.error fault) (.error fault) := .error Iff.rfl

theorem refl (x : Except Fault α) : Agree Eq x x := by
  cases x with
  | ok a => exact .ok rfl
  | error fault => exact .refl_error fault

theorem bind {f : α → Except Fault γ} {f' : β → Except Fault δ} (h : Agree S x y)
    (hf : ∀ a b, S a b → Agree T (f a) (f' b)) : Agree T (x >>= f) (y >>= f') := by
  cases h with
  | ok h => exact hf _ _ h
  | error h => exact .error h

end Agree

/-! ## Modules and recorders that differ in handles -/

/-- The modules have the same frame, and graphs with related handles. -/
structure Module.Alike (R : NodeId → NodeId → Prop) (L : ListId → ListId → Prop)
    (m m' : Module) : Prop where
  frame : m.SameFrame m'
  graph : m.graph.Alike R L m'.graph

structure TypedRecorder.Alike (R : NodeId → NodeId → Prop) (t t' : TypedRecorder) : Prop where
  optimized : t'.optimized = t.optimized
  file : R t.file t'.file
  unit : R t.unit t'.unit
  subprograms : List.Forall₂ R t.subprograms.toList t'.subprograms.toList
  active : Option.Rel R t.active t'.active

structure TaggedRecorder.Alike (R : NodeId → NodeId → Prop) (L : ListId → ListId → Prop)
    (t t' : TaggedRecorder) : Prop where
  source : t'.source = t.source
  optimized : t'.optimized = t.optimized
  file : R t.file t'.file
  unit : R t.unit t'.unit
  subprograms : L t.subprograms t'.subprograms
  active : Option.Rel R t.active t'.active
  lastLine : t'.lastLine = t.lastLine

/-- The recorders have the same form and related handles. -/
inductive Recorder.Alike (R : NodeId → NodeId → Prop) (L : ListId → ListId → Prop) :
    Recorder → Recorder → Prop where
  | off : Alike R L .off .off
  | typed {t t' : TypedRecorder} (h : t.Alike R t') : Alike R L (.typed t) (.typed t')
  | tagged {t t' : TaggedRecorder} (h : t.Alike R L t') : Alike R L (.tagged t) (.tagged t')

theorem rel_mono {o o' : Option NodeId} (h : Option.Rel R o o')
    (hR : ∀ id id', R id id' → R' id id') : Option.Rel R' o o' := by
  cases h with
  | none => exact .none
  | some h => exact .some (hR _ _ h)

theorem rel_cases {o o' : Option NodeId} (h : Option.Rel R o o') :
    (o = none ∧ o' = none) ∨ ∃ id id', o = some id ∧ o' = some id' ∧ R id id' := by
  cases h with
  | none => exact .inl ⟨rfl, rfl⟩
  | some h => exact .inr ⟨_, _, rfl, rfl, h⟩

theorem TypedRecorder.Alike.mono {t t' : TypedRecorder} (h : t.Alike R t')
    (hR : ∀ id id', R id id' → R' id id') : t.Alike R' t' :=
  ⟨h.optimized, hR _ _ h.file, hR _ _ h.unit, h.subprograms.imp hR, rel_mono h.active hR⟩

theorem TaggedRecorder.Alike.mono {t t' : TaggedRecorder} (h : t.Alike R L t')
    (hR : ∀ id id', R id id' → R' id id') (hL : ∀ id id', L id id' → L' id id') :
    t.Alike R' L' t' :=
  ⟨h.source, h.optimized, hR _ _ h.file, hR _ _ h.unit, hL _ _ h.subprograms,
    rel_mono h.active hR, h.lastLine⟩

theorem Recorder.Alike.mono {r r' : Recorder} (h : r.Alike R L r')
    (hR : ∀ id id', R id id' → R' id id') (hL : ∀ id id', L id id' → L' id id') :
    r.Alike R' L' r' := by
  cases h with
  | off => exact .off
  | typed h => exact .typed (h.mono hR)
  | tagged h => exact .tagged (h.mono hR hL)

/-- A function is found in both modules, with the same name, or in none. -/
theorem Module.Alike.function?_cases {m m' : Module} (h : m.Alike R L m') (id : FunctionId) :
    (m.function? id = none ∧ m'.function? id = none) ∨
      ∃ f f', m.function? id = some f ∧ m'.function? id = some f' ∧ f'.name = f.name := by
  have hnames : (m'.function? id).map (·.name) = (m.function? id).map (·.name) := by
    rw [← Module.getElem?_names, ← Module.getElem?_names, h.frame.names]
  cases hf : m.function? id with
  | none =>
      rw [hf, Option.map_none, Option.map_eq_none_iff] at hnames
      exact .inl ⟨rfl, hnames⟩
  | some f =>
      rw [hf, Option.map_some, Option.map_eq_some_iff] at hnames
      obtain ⟨f', hf', hname⟩ := hnames
      exact .inr ⟨f, f', rfl, hf', hname⟩

theorem Module.Alike.findFunction?_eq {m m' : Module} (h : m.Alike R L m') (name : String) :
    m'.findFunction? name = m.findFunction? name := by
  rw [findFunction?, h.frame.index, findFunction?]

variable {g g' : Graph} {m m' : Module}

theorem Module.Alike.withGraph (h : m.Alike R L m') (hg : g.Alike R' L' g') :
    Module.Alike R' L' { m with graph := g } { m' with graph := g' } :=
  ⟨⟨h.frame.names, h.frame.index, h.frame.owners⟩, hg⟩

/-! ## Typed recorders -/

namespace TypedRecorder

variable {t t' : TypedRecorder}

theorem alike_fileNode (source : SourceFile) :
    Node.Alike R L (.debug (fileNode source) false) (.debug (fileNode source) false) :=
  .debug _ _ (by simp [FieldAlike])

theorem alike_unitNode (settings : Settings) {file file' : NodeId} (hfile : R file file') :
    Node.Alike R L (.debug (unitNode settings file) true) (.debug (unitNode settings file') true) :=
  .debug _ _ (by simp [FieldAlike, hfile])

theorem alike_typeNode {types types' : NodeId} (htypes : R types types') :
    Node.Alike R L (.debug (typeNode types) false) (.debug (typeNode types') false) :=
  .debug _ _ (by simp [FieldAlike, htypes])

theorem Alike.subprogramNode (ht : t.Alike R t') (name linkageName : String) (line : Nat)
    {type type' locals locals' : NodeId} (htype : R type type') (hlocals : R locals locals') :
    Node.Alike R L (.debug (t.subprogramNode name linkageName line type locals) true)
      (.debug (t'.subprogramNode name linkageName line type' locals') true) :=
  .debug _ _ (by simp [FieldAlike, ht.file, ht.unit, ht.optimized, htype, hlocals])

theorem alike_locationNode (line : Nat) {scope scope' : NodeId} (hscope : R scope scope') :
    Node.Alike R L (.debug (locationNode line scope) false)
      (.debug (locationNode line scope') false) :=
  .debug _ _ (by simp [FieldAlike, hscope])

theorem exists_alike_create (hg : g.Alike R L g') (settings : Settings) (source : SourceFile) :
    ∃ R', (∀ id id', R id id' → R' id id') ∧
      (create settings source g).1.Alike R' (create settings source g').1 ∧
      (create settings source g).2.Alike R' L (create settings source g').2 := by
  simp only [create, Graph.addDebug_eq_add]
  obtain ⟨R₁, hR₁, hfile, hg₁⟩ := hg.add (alike_fileNode source)
  generalize g.add (.debug (fileNode source) false) = file at hfile hg₁ ⊢
  generalize g'.add (.debug (fileNode source) false) = file' at hfile hg₁ ⊢
  obtain ⟨R₂, hR₂, hunit, hg₂⟩ := hg₁.add (alike_unitNode settings hfile)
  exact ⟨R₂, fun id id' hid => hR₂ id id' (hR₁ id id' hid),
    ⟨rfl, hR₂ _ _ hfile, hunit, .nil, .none⟩, hg₂⟩

theorem exists_alike_addType (hg : g.Alike R L g') :
    ∃ R', (∀ id id', R id id' → R' id id') ∧ R' (addType g).1 (addType g').1 ∧
      (addType g).2.Alike R' L (addType g').2 := by
  simp only [addType, Graph.addTuple_eq_add, Graph.addDebug_eq_add]
  obtain ⟨R₁, hR₁, htypes, hg₁⟩ := hg.add (.tuple .nil)
  generalize g.add (.tuple []) = types at htypes hg₁ ⊢
  generalize g'.add (.tuple []) = types' at htypes hg₁ ⊢
  obtain ⟨R₂, hR₂, htype, hg₂⟩ := hg₁.add (alike_typeNode htypes)
  exact ⟨R₂, fun id id' hid => hR₂ id id' (hR₁ id id' hid), htype, hg₂⟩

theorem Alike.exists_addSubprogram (ht : t.Alike R t') (hg : g.Alike R L g')
    (name linkageName : String) (line : Nat) :
    ∃ R', (∀ id id', R id id' → R' id id') ∧
      (t.addSubprogram name linkageName line g).2.1.Alike R'
        (t'.addSubprogram name linkageName line g').2.1 ∧
      (t.addSubprogram name linkageName line g).2.2.Alike R' L
        (t'.addSubprogram name linkageName line g').2.2 := by
  simp only [addSubprogram, Graph.addTuple_eq_add, Graph.addDebug_eq_add]
  obtain ⟨R₁, hR₁, htype, hg₁⟩ := exists_alike_addType hg
  generalize addType g = type at htype hg₁ ⊢
  generalize addType g' = type' at htype hg₁ ⊢
  obtain ⟨R₂, hR₂, hempty, hg₂⟩ := hg₁.add (.tuple .nil)
  generalize type.2.add (.tuple []) = empty at hempty hg₂ ⊢
  generalize type'.2.add (.tuple []) = empty' at hempty hg₂ ⊢
  have ht₂ := ht.mono fun id id' hid => hR₂ id id' (hR₁ id id' hid)
  obtain ⟨R₃, hR₃, hid, hg₃⟩ :=
    hg₂.add (ht₂.subprogramNode name linkageName line (hR₂ _ _ htype) hempty)
  have ht₃ := ht₂.mono hR₃
  refine ⟨R₃, fun id id' hid => hR₃ id id' (hR₂ id id' (hR₁ id id' hid)),
    ⟨ht₃.optimized, ht₃.file, ht₃.unit, ?_, .some hid⟩, hg₃⟩
  simp only [Array.toList_push]
  exact List.rel_append ht₃.subprograms (.cons hid .nil)

end TypedRecorder

/-! ## Tagged recorders -/

namespace TaggedRecorder

variable {t t' : TaggedRecorder}

theorem alike_pairOperands (source : SourceFile) :
    Node.Alike R L (.tuple (pairOperands source)) (.tuple (pairOperands source)) :=
  .tuple (by simp [pairOperands])

theorem alike_fileOperands {pair pair' : NodeId} (hpair : R pair pair') :
    Node.Alike R L (.tuple (fileOperands pair)) (.tuple (fileOperands pair')) :=
  .tuple (by simp [fileOperands, hpair])

theorem alike_emptyOperands : Node.Alike R L (.tuple emptyOperands) (.tuple emptyOperands) :=
  .tuple (by simp [emptyOperands])

theorem alike_unitOperands (settings : Settings) {pair pair' empty empty' : NodeId}
    {list list' : ListId} (hpair : R pair pair') (hempty : R empty empty') (hlist : L list list') :
    Node.Alike R L (.tuple (unitOperands settings pair empty list))
      (.tuple (unitOperands settings pair' empty' list')) :=
  .tuple (by simp [unitOperands, hpair, hempty, hlist])

theorem alike_typesOperands : Node.Alike R L (.tuple typesOperands) (.tuple typesOperands) :=
  .tuple (by simp [typesOperands])

theorem alike_typeOperands {types types' : NodeId} (htypes : R types types') :
    Node.Alike R L (.tuple (typeOperands types)) (.tuple (typeOperands types')) :=
  .tuple (by simp [typeOperands, htypes])

theorem Alike.subprogramOperands (ht : t.Alike R L t') (name linkageName : String) (line : Nat)
    (function : Option FunctionId) {pair pair' context context' type type' locals locals' : NodeId}
    (hpair : R pair pair') (hcontext : R context context') (htype : R type type')
    (hlocals : R locals locals') :
    Node.Alike R L
      (.tuple (t.subprogramOperands pair context name linkageName line type locals function))
      (.tuple (t'.subprogramOperands pair' context' name linkageName line type' locals'
        function)) :=
  .tuple (by simp [TaggedRecorder.subprogramOperands, hpair, hcontext, ht.optimized, htype,
    hlocals])

theorem alike_locationOperands (line : Nat) {scope scope' : NodeId} (hscope : R scope scope') :
    Node.Alike R L (.tuple (locationOperands line scope))
      (.tuple (locationOperands line scope')) :=
  .tuple (by simp [locationOperands, hscope])

theorem exists_alike_addPair (hg : g.Alike R L g') (source : SourceFile) :
    ∃ R', (∀ id id', R id id' → R' id id') ∧ R' (addPair source g).1 (addPair source g').1 ∧
      (addPair source g).2.Alike R' L (addPair source g').2 :=
  hg.add (alike_pairOperands source)

theorem exists_alike_addFile (hg : g.Alike R L g') (source : SourceFile) :
    ∃ R', (∀ id id', R id id' → R' id id') ∧ R' (addFile source g).1 (addFile source g').1 ∧
      (addFile source g).2.Alike R' L (addFile source g').2 := by
  simp only [addFile, Graph.addTuple_eq_add]
  obtain ⟨R₁, hR₁, hpair, hg₁⟩ := exists_alike_addPair hg source
  generalize addPair source g = pair at hpair hg₁ ⊢
  generalize addPair source g' = pair' at hpair hg₁ ⊢
  obtain ⟨R₂, hR₂, hfile, hg₂⟩ := hg₁.add (alike_fileOperands hpair)
  exact ⟨R₂, fun id id' hid => hR₂ id id' (hR₁ id id' hid), hfile, hg₂⟩

theorem exists_alike_addType (hg : g.Alike R L g') :
    ∃ R', (∀ id id', R id id' → R' id id') ∧ R' (addType g).1 (addType g').1 ∧
      (addType g).2.Alike R' L (addType g').2 := by
  simp only [addType, Graph.addTuple_eq_add]
  obtain ⟨R₁, hR₁, htypes, hg₁⟩ := hg.add alike_typesOperands
  generalize g.add (.tuple typesOperands) = types at htypes hg₁ ⊢
  generalize g'.add (.tuple typesOperands) = types' at htypes hg₁ ⊢
  obtain ⟨R₂, hR₂, htype, hg₂⟩ := hg₁.add (alike_typeOperands htypes)
  exact ⟨R₂, fun id id' hid => hR₂ id id' (hR₁ id id' hid), htype, hg₂⟩

theorem exists_alike_create (hg : g.Alike R L g') (settings : Settings) (source : SourceFile) :
    ∃ R', (∀ id id', R id id' → R' id id') ∧
      (create settings source g).1.Alike R'
        (fun list list' => L list list' ∨ (list = ⟨g.lists.size⟩ ∧ list' = ⟨g'.lists.size⟩))
        (create settings source g').1 ∧
      (create settings source g).2.Alike R'
        (fun list list' => L list list' ∨ (list = ⟨g.lists.size⟩ ∧ list' = ⟨g'.lists.size⟩))
        (create settings source g').2 := by
  simp only [create, Graph.addTuple_eq_add]
  obtain ⟨R₁, hR₁, hfile, hg₁⟩ := exists_alike_addFile hg source
  rw [← lists_addFile source g, ← lists_addFile source g']
  generalize addFile source g = file at hfile hg₁ ⊢
  generalize addFile source g' = file' at hfile hg₁ ⊢
  obtain ⟨R₂, hR₂, hpair, hg₂⟩ := exists_alike_addPair hg₁.newList source
  generalize addPair source file.2.newList.2 = pair at hpair hg₂ ⊢
  generalize addPair source file'.2.newList.2 = pair' at hpair hg₂ ⊢
  obtain ⟨R₃, hR₃, hempty, hg₃⟩ := hg₂.add alike_emptyOperands
  generalize pair.2.add (.tuple emptyOperands) = empty at hempty hg₃ ⊢
  generalize pair'.2.add (.tuple emptyOperands) = empty' at hempty hg₃ ⊢
  obtain ⟨R₄, hR₄, hunit, hg₄⟩ :=
    hg₃.add (alike_unitOperands settings (hR₃ _ _ hpair) hempty (.inr ⟨rfl, rfl⟩))
  have hR (id id' : NodeId) (hid : R₁ id id') : R₄ id id' :=
    hR₄ id id' (hR₃ id id' (hR₂ id id' hid))
  exact ⟨R₄, fun id id' hid => hR id id' (hR₁ id id' hid),
    ⟨rfl, rfl, hR _ _ hfile, hunit, .inr ⟨rfl, rfl⟩, .none, rfl⟩, hg₄⟩

theorem Alike.exists_addSubprogram (ht : t.Alike R L t') (hm : m.Alike R L m')
    (name linkageName : String) (line : Nat) :
    ∃ R', (∀ id id', R id id' → R' id id') ∧
      (t.addSubprogram name linkageName line m).2.1.Alike R' L
        (t'.addSubprogram name linkageName line m').2.1 ∧
      (t.addSubprogram name linkageName line m).2.2.Alike R' L
        (t'.addSubprogram name linkageName line m').2.2 := by
  have hfunction := hm.findFunction?_eq linkageName
  simp only [addSubprogram, Graph.addTuple_eq_add, hfunction, ht.source]
  obtain ⟨R₁, hR₁, htype, hg₁⟩ := exists_alike_addType hm.graph
  generalize addType m.graph = type at htype hg₁ ⊢
  generalize addType m'.graph = type' at htype hg₁ ⊢
  obtain ⟨R₂, hR₂, hempty, hg₂⟩ := hg₁.add alike_emptyOperands
  generalize type.2.add (.tuple emptyOperands) = empty at hempty hg₂ ⊢
  generalize type'.2.add (.tuple emptyOperands) = empty' at hempty hg₂ ⊢
  obtain ⟨R₃, hR₃, hfile, hg₃⟩ := exists_alike_addFile hg₂ t.source
  generalize addFile t.source empty.2 = file at hfile hg₃ ⊢
  generalize addFile t.source empty'.2 = file' at hfile hg₃ ⊢
  obtain ⟨R₄, hR₄, hpair, hg₄⟩ := exists_alike_addPair hg₃ t.source
  generalize addPair t.source file.2 = pair at hpair hg₄ ⊢
  generalize addPair t.source file'.2 = pair' at hpair hg₄ ⊢
  have hR₂₄ (id id' : NodeId) (hid : R₂ id id') : R₄ id id' := hR₄ id id' (hR₃ id id' hid)
  have hR (id id' : NodeId) (hid : R id id') : R₄ id id' :=
    hR₂₄ id id' (hR₂ id id' (hR₁ id id' hid))
  have ht₄ := ht.mono hR fun _ _ hlist => hlist
  obtain ⟨R₅, hR₅, hid, hg₅⟩ := hg₄.add (ht₄.subprogramOperands name linkageName line
    (m.findFunction? linkageName) hpair (hR₄ _ _ hfile) (hR₂₄ _ _ (hR₂ _ _ htype))
    (hR₂₄ _ _ hempty))
  have ht₅ := ht₄.mono hR₅ fun _ _ hlist => hlist
  exact ⟨R₅, fun id id' hid => hR₅ id id' (hR id id' hid),
    ⟨rfl, ht₅.optimized, ht₅.file, ht₅.unit, ht₅.subprograms, .some hid, ht₅.lastLine⟩,
    hm.withGraph (hg₅.pushToList ht₅.subprograms hid)⟩

end TaggedRecorder

/-! ## All recorders -/

namespace Recorder

variable {r r' : Recorder} {c c' : Cursor} {function : FunctionId} {name linkageName : String}
  {line : Nat}

/-- The same recorder is created in both modules.  It relates no list but its own. -/
theorem agree_create (hm : m.Alike R L m') (schema : Option Schema) (settings : Settings)
    (workingDirectory path : List UInt8) :
    Agree (fun a b => ∃ R' L', (∀ id id', R id id' → R' id id') ∧
        (∀ list list', L list list' → L' list list') ∧
        (∀ list list', L' list list' →
          L list list' ∨ list'.index = m'.graph.lists.size) ∧
        a.1.Alike R' L' b.1 ∧ a.2.1.Alike R' L' b.2.1)
      (create schema settings workingDirectory path m)
      (create schema settings workingDirectory path m') := by
  cases schema with
  | none =>
      exact .ok ⟨R, L, fun _ _ h => h, fun _ _ h => h, fun _ _ h => .inl h, .off, hm⟩
  | some schema =>
      refine Agree.bind (.refl _) ?_
      rintro source _ rfl
      cases schema with
      | modern =>
          obtain ⟨R', hR, hr, hg⟩ := TypedRecorder.exists_alike_create hm.graph settings source
          dsimp only
          generalize TypedRecorder.create settings source m.graph = created at hr hg ⊢
          generalize TypedRecorder.create settings source m'.graph = created' at hr hg ⊢
          exact .ok ⟨R', L, hR, fun _ _ h => h, fun _ _ h => .inl h, .typed hr, hm.withGraph hg⟩
      | legacy =>
          obtain ⟨R', hR, hr, hg⟩ := TaggedRecorder.exists_alike_create hm.graph settings source
          dsimp only
          generalize TaggedRecorder.create settings source m.graph = created at hr hg ⊢
          generalize TaggedRecorder.create settings source m'.graph = created' at hr hg ⊢
          refine .ok ⟨R', _, hR, fun _ _ h => .inl h, ?_, .tagged hr, hm.withGraph hg⟩
          rintro list list' (h | ⟨-, rfl⟩)
          · exact .inl h
          · exact .inr rfl

theorem Alike.agree_markSubprogram (hr : r.Alike R L r') (hm : m.Alike R L m')
    (function : FunctionId) (name : String) (line : Nat) :
    Agree (fun a b => ∃ R', (∀ id id', R id id' → R' id id') ∧ a.1.Alike R' L b.1 ∧
        a.2.1.Alike R' L b.2.1)
      (r.markSubprogram m function name line) (r'.markSubprogram m' function name line) := by
  cases hr with
  | off => exact .ok ⟨R, fun _ _ h => h, .off, hm⟩
  | @typed t t' ht =>
      rcases hm.function?_cases function with ⟨hnone, hnone'⟩ | ⟨f, f', hf, hf', hname⟩
      · simp only [markSubprogram, TypedRecorder.markSubprogram, hnone, hnone']
        exact .refl_error _
      · simp only [markSubprogram, TypedRecorder.markSubprogram_eq hf,
          TypedRecorder.markSubprogram_eq hf', hname]
        obtain ⟨R', hR, ht', hg⟩ := ht.exists_addSubprogram hm.graph name f.name line
        generalize t.addSubprogram name f.name line m.graph = added at ht' hg ⊢
        generalize t'.addSubprogram name f.name line m'.graph = added' at ht' hg ⊢
        refine .ok ⟨R', hR, .typed ht', ?_, hg⟩
        exact ((Module.sameFrame_attachToFunction _ _ _ _).symm.trans
          (hm.withGraph hg).frame).trans (Module.sameFrame_attachToFunction _ _ _ _)
  | @tagged t t' ht =>
      rcases hm.function?_cases function with ⟨hnone, hnone'⟩ | ⟨f, f', hf, hf', hname⟩
      · simp only [markSubprogram, TaggedRecorder.markSubprogram, hnone, hnone']
        exact .refl_error _
      · simp only [markSubprogram, TaggedRecorder.markSubprogram_eq hf,
          TaggedRecorder.markSubprogram_eq hf', hname]
        obtain ⟨R', hR, ht', hm'⟩ := ht.exists_addSubprogram hm name f.name line
        generalize t.addSubprogram name f.name line m = added at ht' hm' ⊢
        generalize t'.addSubprogram name f.name line m' = added' at ht' hm' ⊢
        exact .ok ⟨R', hR, .tagged ht', hm'⟩

/-- Both recorders offer a subprogram, or none of them. -/
theorem Alike.addSubprogram?_cases (hr : r.Alike R L r') (hm : m.Alike R L m')
    (name linkageName : String) (line : Nat) :
    (r.addSubprogram? name linkageName line m = none ∧
      r'.addSubprogram? name linkageName line m' = none) ∨
    ∃ id r₁ m₁ id' r₁' m₁' R', r.addSubprogram? name linkageName line m = some (id, r₁, m₁) ∧
      r'.addSubprogram? name linkageName line m' = some (id', r₁', m₁') ∧
      (∀ id id', R id id' → R' id id') ∧ r₁.Alike R' L r₁' ∧ m₁.Alike R' L m₁' := by
  cases hr with
  | off => exact .inl ⟨rfl, rfl⟩
  | @typed t t' ht =>
      obtain ⟨R', hR, ht', hg⟩ := ht.exists_addSubprogram hm.graph name linkageName line
      simp only [addSubprogram?]
      generalize t.addSubprogram name linkageName line m.graph = added at ht' hg ⊢
      generalize t'.addSubprogram name linkageName line m'.graph = added' at ht' hg ⊢
      exact .inr ⟨_, _, _, _, _, _, R', rfl, rfl, hR, .typed ht', hm.withGraph hg⟩
  | @tagged t t' ht =>
      obtain ⟨R', hR, ht', hm'⟩ := ht.exists_addSubprogram hm name linkageName line
      simp only [addSubprogram?]
      generalize t.addSubprogram name linkageName line m = added at ht' hm' ⊢
      generalize t'.addSubprogram name linkageName line m' = added' at ht' hm' ⊢
      exact .inr ⟨_, _, _, _, _, _, R', rfl, rfl, hR, .tagged ht', hm'⟩

/-- Both recorders offer a location, or none of them.  Those they give are related. -/
theorem Alike.addLocation?_cases (hr : r.Alike R L r') (hm : m.Alike R L m') (line : Nat) :
    (r.addLocation? line m = none ∧ r'.addLocation? line m' = none) ∨
    ∃ x x', r.addLocation? line m = some x ∧ r'.addLocation? line m' = some x' ∧
      Agree (fun a b => ∃ R', (∀ id id', R id id' → R' id id') ∧ R' a.1 b.1 ∧
        a.2.Alike R' L b.2) x x' := by
  cases hr with
  | off => exact .inl ⟨rfl, rfl⟩
  | @typed t t' ht =>
      refine .inr ⟨_, _, rfl, rfl, ?_⟩
      rcases rel_cases ht.active with ⟨hnone, hnone'⟩ | ⟨scope, scope', hscope, hscope', hrel⟩
      · simp only [TypedRecorder.addLocation, hnone, hnone']
        exact .refl_error _
      · simp only [TypedRecorder.addLocation, hscope, hscope']
        obtain ⟨R', hR, hid, hg⟩ := hm.graph.add (TypedRecorder.alike_locationNode line hrel)
        exact .ok ⟨R', hR, hid, hm.withGraph hg⟩
  | @tagged t t' ht =>
      refine .inr ⟨_, _, rfl, rfl, ?_⟩
      rcases rel_cases ht.active with ⟨hnone, hnone'⟩ | ⟨scope, scope', hscope, hscope', hrel⟩
      · simp only [TaggedRecorder.addLocation, hnone, hnone']
        exact .refl_error _
      · simp only [TaggedRecorder.addLocation, hscope, hscope']
        obtain ⟨R', hR, hid, hg⟩ := hm.graph.add (TaggedRecorder.alike_locationOperands line hrel)
        exact .ok ⟨R', hR, hid, hm.withGraph hg⟩

theorem newLocation?_typed {t : TypedRecorder} {scope : NodeId} (hactive : t.active = some scope)
    (m : Module) (line : Nat) :
    (Recorder.typed t).newLocation? m line =
      some (m.graph.addDebug (TypedRecorder.locationNode line scope) false).1 := by
  simp only [newLocation?, addLocation?, TypedRecorder.addLocation, hactive]
  rfl

theorem newLocation?_tagged {t : TaggedRecorder} {scope : NodeId} (hactive : t.active = some scope)
    (m : Module) (line : Nat) :
    (Recorder.tagged t).newLocation? m line =
      some (m.graph.addTuple (TaggedRecorder.locationOperands line scope)).1 := by
  simp only [newLocation?, addLocation?, TaggedRecorder.addLocation, hactive]
  rfl

/-- What is promised of the mark of a line by two recorders at cursors in one block. -/
def MarksAlike (R : NodeId → NodeId → Prop) (L : ListId → ListId → Prop) (block : BlockId)
    (location location' : Option NodeId) (a b : Recorder × Cursor × Module × Option Event) : Prop :=
  ∃ R', (∀ id id', R id id' → R' id id') ∧ a.1.Alike R' L b.1 ∧ a.2.1.block = block ∧
    b.2.1.block = block ∧ a.2.2.1.Alike R' L b.2.2.1 ∧ Option.Rel R' location location'

private theorem agree_markLocation_typed {t t' : TypedRecorder} (ht : t.Alike R t')
    (hm : m.Alike R L m') (hblock : c'.block = c.block) (line : Nat) :
    Agree (MarksAlike R L c.block ((Recorder.typed t).newLocation? m line)
        ((Recorder.typed t').newLocation? m' line))
      ((Recorder.typed t).markLocation m c line) ((Recorder.typed t').markLocation m' c' line) := by
  rcases rel_cases ht.active with ⟨hnone, hnone'⟩ | ⟨scope, scope', hscope, hscope', hrel⟩
  · simp only [markLocation, TypedRecorder.markLocation, TypedRecorder.addLocation, hnone, hnone']
    exact .refl_error _
  · simp only [markLocation, TypedRecorder.markLocation_eq hscope,
      TypedRecorder.markLocation_eq hscope', newLocation?_typed hscope, newLocation?_typed hscope']
    obtain ⟨R', hR, hid, hg⟩ := hm.graph.add (TypedRecorder.alike_locationNode line hrel)
    exact .ok ⟨R', hR, .typed (ht.mono hR), rfl, hblock, hm.withGraph hg, .some hid⟩

private theorem agree_markLocation_tagged {t t' : TaggedRecorder} (ht : t.Alike R L t')
    (hm : m.Alike R L m') (hblock : c'.block = c.block) (line : Nat)
    (hline : t.lastLine ≠ some line) :
    Agree (MarksAlike R L c.block ((Recorder.tagged t).newLocation? m line)
        ((Recorder.tagged t').newLocation? m' line))
      ((Recorder.tagged t).markLocation m c line)
      ((Recorder.tagged t').markLocation m' c' line) := by
  have hline' : t'.lastLine ≠ some line := ht.lastLine ▸ hline
  rcases rel_cases ht.active with ⟨hnone, hnone'⟩ | ⟨scope, scope', hscope, hscope', hrel⟩
  · simp only [markLocation, TaggedRecorder.markLocation, if_neg hline, if_neg hline',
      TaggedRecorder.addLocation, hnone, hnone']
    exact .refl_error _
  · have hsize : m'.blocks.size = m.blocks.size := by
      rw [← Module.length_owners, hm.frame.owners, Module.length_owners]
    by_cases hlt : c.block.index < m.blocks.size
    · have hlt' : c'.block.index < m'.blocks.size := by rwa [hblock, hsize]
      simp only [markLocation, TaggedRecorder.markLocation_of_new hline hscope hlt,
        TaggedRecorder.markLocation_of_new hline' hscope' hlt', newLocation?_tagged hscope,
        newLocation?_tagged hscope']
      obtain ⟨R', hR, hid, hg⟩ := hm.graph.add (TaggedRecorder.alike_locationOperands line hrel)
      have ht' := ht.mono hR fun _ _ hlist => hlist
      refine .ok ⟨R', hR, .tagged ⟨ht'.source, ht'.optimized, ht'.file, ht'.unit, ht'.subprograms,
        ht'.active, rfl⟩, rfl, hblock, ⟨?_, hg⟩, .some hid⟩
      exact ((Module.sameFrame_pushInstruction _ _).symm.trans (hm.withGraph hg).frame).trans
        (Module.sameFrame_pushInstruction _ _)
    · have hlt' : ¬ c'.block.index < m'.blocks.size := by rwa [hblock, hsize]
      simp only [markLocation, TaggedRecorder.markLocation, if_neg hline, if_neg hline',
        TaggedRecorder.addLocation, hscope, hscope', bind, Except.bind, Module.emit?,
        Module.appendInstruction?, if_neg hlt, if_neg hlt']
      exact .refl_error _

/-- At cursors in one block the recorders create related locations, or none. -/
theorem Alike.agree_markLocation (hr : r.Alike R L r') (hm : m.Alike R L m')
    (hblock : c'.block = c.block) (k line : Nat) :
    Agree (MarksAlike R L c.block (r.location? m (.markLocation k line))
        (r'.location? m' (.markLocation k line)))
      (r.markLocation m c line) (r'.markLocation m' c' line) := by
  cases hr with
  | off => exact .ok ⟨R, fun _ _ h => h, .off, rfl, hblock, hm, .none⟩
  | typed ht => exact agree_markLocation_typed ht hm hblock line
  | @tagged t t' ht =>
      by_cases hline : t.lastLine = some line
      · have hline' : t'.lastLine = some line := ht.lastLine.trans hline
        rw [location?, location?, lastLine?, lastLine?, if_pos hline, if_pos hline']
        simp only [markLocation, TaggedRecorder.markLocation_of_repeated hline,
          TaggedRecorder.markLocation_of_repeated hline']
        exact .ok ⟨R, fun _ _ h => h, .tagged ht, rfl, hblock, hm, .none⟩
      · have hline' : t'.lastLine ≠ some line := ht.lastLine ▸ hline
        rw [location?, location?, lastLine?, lastLine?, if_neg hline, if_neg hline']
        exact agree_markLocation_tagged ht hm hblock line hline

/-- What is committed at the end touches no list and no node. -/
theorem alike_finalize (hm : m.Alike R L m') (r r' : Recorder) :
    (r.finalize m).1.Alike R L (r'.finalize m').1 := by
  refine ⟨?_, hm.graph.of_grows (grows_finalize r m) (grows_finalize r' m') ?_ ?_⟩
  · exact ((sameFrame_finalize r m).symm.trans hm.frame).trans (sameFrame_finalize r' m')
  · intro list list' _
    rw [Graph.list?, lists_finalize, Graph.list?]
  · intro list list' _
    rw [Graph.list?, lists_finalize, Graph.list?]

end Recorder

end DebugMetadata

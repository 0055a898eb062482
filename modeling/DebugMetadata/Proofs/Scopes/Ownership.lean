import DebugMetadata.Proofs.Scopes.Typed

/-!
# Locations and the functions that own them

A driver that registers each function once, marks lines in the function registered
last and uses each cursor in one function only gets every instruction located in the
subprogram of the instruction's own function.  Cursors of earlier functions may stay
in use: what they carry was marked while their function was the last one.
-/

namespace DebugMetadata

/-! ## What is asked of the driver -/

/-- What the typed recorder of a run was told of functions. -/
structure Registry where
  /-- The functions it has registered. -/
  functions : List FunctionId := []
  /-- The function it registered last, unless it has added a subprogram of no function
  since then. -/
  current : Option FunctionId := none
  deriving DecidableEq, Repr

namespace Session

def registryAfter (s : Session) (registry : Registry) : Command → Registry
  | .recorder n (.markSubprogram function _ _) =>
    if s.isTyped n then ⟨function :: registry.functions, some function⟩ else registry
  | .recorder n (.addSubprogram _ _ _) =>
    if s.isTyped n then { registry with current := none } else registry
  | _ => registry

/-- The function that a cursor stands in. -/
def place? (s : Session) (n : Nat) : Option FunctionId := do
  let c ← s.cursors[n]?
  c.function? s.module

/-- Whether a command is one of a driver with at most one typed recorder that registers
no function twice, marks lines in the function registered last, uses each cursor in its
home function, and leaves it to the recorder to locate instructions and to attach
subprograms. -/
def keepsScopes (home : Nat → FunctionId) (s : Session) (registry : Registry) : Command → Bool
  | .attachToFunction _ key _ => key ≠ TypedRecorder.subprogramKey
  | .cursor _ (.locate location) => location = none
  | .cursor n (.emit _) => s.place? n = some (home n)
  | .createRecorder choice settings _ =>
    choice.schema settings = some .modern → ∀ n < s.recorders.size, s.isTyped n = false
  | .recorder n .clone => s.isTyped n = false
  | .recorder n (.markSubprogram function _ _) =>
    s.isTyped n = true → function ∉ registry.functions
  | .recorder n (.markLocation k _) =>
    s.place? k = some (home k) ∧ (s.isTyped n = true → registry.current = some (home k))
  | _ => true

end Session

/-! ## What is promised -/

/-- The node is the subprogram that a typed recorder has recorded for a function and
attached to it. -/
structure TypedRecorder.IsSubprogramOf (t : TypedRecorder) (m : Module) (scope : NodeId)
    (f : Function) : Prop where
  attached : f.attachments.find? subprogramKey = some scope
  recorded : scope ∈ t.subprograms
  node : ∃ name line type locals, m.graph.node? scope =
    some (.debug (t.subprogramNode name f.name line type locals) true)

namespace Session

/-- The location is that of a line in the subprogram of a function. -/
def LocatesIn (s : Session) (location : NodeId) (function : FunctionId) : Prop :=
  ∃ n t f line scope, s.HasRecorder n (.typed t) ∧ s.module.function? function = some f ∧
    s.module.graph.node? location =
      some (.debug (TypedRecorder.locationNode line scope) false) ∧
    t.IsSubprogramOf s.module scope f

/-- The recorder's active subprogram is that of a function. -/
def ActiveIn (s : Session) (function : FunctionId) : Prop :=
  ∃ n t f scope, s.HasRecorder n (.typed t) ∧ s.module.function? function = some f ∧
    t.active = some scope ∧ t.IsSubprogramOf s.module scope f

/-- Every location belongs to the function it is used in. -/
structure Scoped (home : Nat → FunctionId) (s : Session) (registry : Registry) : Prop where
  rooted : s.Rooted
  unique : ∀ n n', s.isTyped n = true → s.isTyped n' = true → n = n'
  current : ∀ function, registry.current = some function →
    function ∈ registry.functions ∧ s.ActiveIn function
  cursors : ∀ n c location, s.cursors[n]? = some c → c.location = some location →
    home n ∈ registry.functions ∧ s.LocatesIn location (home n)
  instrs : ∀ id i location, s.module.instruction? id = some i → i.location = some location →
    ∃ function ∈ registry.functions,
      (s.module.block? i.block).map (·.function) = some function ∧ s.LocatesIn location function

variable {home : Nat → FunctionId} {s s' : Session} {registry : Registry} {command : Command}
  {answer : Answer} {n : Nat} {c : Cursor} {location scope : NodeId} {function : FunctionId}
  {t t' : TypedRecorder} {f : Function}

/-! ## What a command keeps -/

theorem mem_functions_after (h : function ∈ registry.functions) (s : Session)
    (command : Command) : function ∈ (s.registryAfter registry command).functions := by
  unfold registryAfter
  split
  · split
    · exact List.mem_cons_of_mem _ h
    · exact h
  · split
    · exact h
    · exact h
  · exact h

/-- A function that was registered before keeps its subprogram. -/
theorem Performs.isSubprogramOf (h : s.Performs command answer s')
    (hkeeps : s.keepsScopes home registry command = true) (hmem : function ∈ registry.functions)
    (hf : s.module.function? function = some f) (ht : t.IsSubprogramOf s.module scope f)
    (hleads : t.LeadsTo t') :
    ∃ f', s'.module.function? function = some f' ∧ t'.IsSubprogramOf s'.module scope f' := by
  obtain ⟨f', hf', hattachments⟩ := h.attachments_cases hf
  obtain ⟨f'', hf'', hname⟩ := h.function_name hf
  cases hf'.symm.trans hf''
  refine ⟨f', hf', ?_, hleads.subprograms scope ht.recorded, ?_⟩
  · rcases hattachments with hsame | ⟨key, node, rfl, hinsert⟩ |
      ⟨n, slot, t₁, name, line, rfl, hslot, hr, -⟩
    · rw [hsame]
      exact ht.attached
    · have hkey : key ≠ TypedRecorder.subprogramKey := of_decide_eq_true hkeeps
      rw [hinsert, Keyed.find?_insert, if_neg (Ne.symm hkey)]
      exact ht.attached
    · have hfresh := of_decide_eq_true hkeeps
      exact absurd hmem (hfresh (isTyped_iff.mpr ⟨t₁, slot, hslot, hr⟩))
  · obtain ⟨name, line, type, locals, hnode⟩ := ht.node
    refine ⟨name, line, type, locals, ?_⟩
    rw [hleads.subprogramNode_eq, hname]
    exact h.grows.nodes.node? hnode

theorem LocatesIn.step (h : s.LocatesIn location function) (hperform : s.Performs command answer s')
    (hkeeps : s.keepsScopes home registry command = true)
    (hmem : function ∈ registry.functions) : s'.LocatesIn location function := by
  obtain ⟨n, t, f, line, scope, ht, hf, hnode, hscope⟩ := h
  obtain ⟨t', ht', hleads, -⟩ := hperform.exists_typed ht
  obtain ⟨f', hf', hscope'⟩ := hperform.isSubprogramOf hkeeps hmem hf hscope hleads
  exact ⟨n, t', f', line, scope, ht', hf', hperform.grows.nodes.node? hnode, hscope'⟩

/-- A recorder that is told of no subprogram keeps the active one. -/
theorem ActiveIn.step (h : s.ActiveIn function) (hperform : s.Performs command answer s')
    (hkeeps : s.keepsScopes home registry command = true) (hmem : function ∈ registry.functions)
    (htells : ∀ n, s.isTyped n = true → ¬ TellsSubprogram command n) :
    s'.ActiveIn function := by
  obtain ⟨n, t, f, scope, ht, hf, hactive, hscope⟩ := h
  obtain ⟨t', ht', hleads, hsame | htold⟩ := hperform.exists_typed ht
  · obtain ⟨f', hf', hscope'⟩ := hperform.isSubprogramOf hkeeps hmem hf hscope hleads
    exact ⟨n, t', f', scope, ht', hf', hsame.trans hactive, hscope'⟩
  · exact absurd htold (htells n (isTyped_iff.mpr ⟨t, ht⟩))

/-- A function that a typed recorder registers has the recorder's active subprogram. -/
theorem activeIn_of_markSubprogram {name : String} {line : Nat}
    (hperform : s.Performs (.recorder n (.markSubprogram function name line)) answer s')
    (ht : s.HasRecorder n (.typed t)) : s'.ActiveIn function := by
  obtain ⟨slot, hslot, hr⟩ := ht
  cases hperform with
  | @markSubprogram _ _ _ _ _ _ m _ hslot' hmark =>
      cases hslot.symm.trans hslot'
      rw [hr] at hmark
      rcases Recorder.markSubprogram_cases hmark with
        ⟨hoff, -⟩ | ⟨t', f, heq, hf, hr', hm, -⟩ | ⟨t', f, heq, -⟩
      · cases hoff
      · cases heq
        obtain ⟨type, locals, hnode⟩ :=
          t.node?_addSubprogram name f.name line s.module.graph
        have hleads := t.leadsTo_addSubprogram name f.name line s.module.graph
        have hrecorder := t.recorder_addSubprogram name f.name line s.module.graph
        generalize t.addSubprogram name f.name line s.module.graph = added
          at hr' hm hnode hleads hrecorder
        refine ⟨n, added.2.1, f.attach TypedRecorder.subprogramKey added.1, added.1,
          ⟨_, getElem?_setRecorder_self hslot _, hr'⟩, ?_, ?_, ?_, ?_, name, line, type, locals, ?_⟩
        · change m.function? function = _
          rw [hm, Module.function?_attachToFunction, if_pos rfl, Module.function?_graph, hf]
          rfl
        · rw [hrecorder]
        · exact (Keyed.find?_insert _ _ _ _).trans (if_pos rfl)
        · rw [hrecorder]
          exact Array.mem_push_self
        · rw [hleads.subprogramNode_eq]
          change m.graph.node? added.1 = _
          rw [hm]
          exact hnode
      · cases heq

/-- What tells no typed recorder of a subprogram changes nothing in the registry. -/
theorem registryAfter_eq_self
    (htells : ¬ ∃ n, s.isTyped n = true ∧ TellsSubprogram command n) :
    s.registryAfter registry command = registry := by
  unfold registryAfter
  split
  next n function name line =>
    exact if_neg fun htyped => htells ⟨n, htyped, .inl ⟨function, name, line, rfl⟩⟩
  next n name linkageName line =>
    exact if_neg fun htyped => htells ⟨n, htyped, .inr ⟨name, linkageName, line, rfl⟩⟩
  next => rfl

/-- A typed recorder is made only where there is none. -/
theorem Performs.not_isTyped_of_new (h : s.Performs command answer s')
    (hkeeps : s.keepsScopes home registry command = true)
    (hnew : s'.isTyped s.recorders.size = true) : ¬ s.isTyped n = true := by
  intro htyped
  obtain ⟨t, ht⟩ := isTyped_iff.mp hnew
  rcases h.leadsTo_cases ht with
    ⟨r, hr, -⟩ | ⟨-, k, rfl, hk⟩ | ⟨-, choice, settings, path, event, rfl, hcreate⟩
  · exact absurd hr.lt (Nat.lt_irrefl _)
  · have hfalse := of_decide_eq_true hkeeps
    cases hfalse.symm.trans (isTyped_iff.mpr ⟨t, hk⟩)
  · obtain ⟨t', ht'⟩ := isTyped_iff.mp htyped
    rcases Recorder.create_cases hcreate with
      ⟨-, hr, -⟩ | ⟨source, hschema, -⟩ | ⟨source, -, -, hr, -⟩
    · cases hr
    · have hfalse := of_decide_eq_true hkeeps hschema n ht'.lt
      cases hfalse.symm.trans htyped
    · cases hr

/-! ## Every location belongs to the function it is used in -/

namespace Scoped

theorem start (home : Nat → FunctionId) (workingDirectory : List UInt8) (name : String) :
    (Session.start workingDirectory name).Scoped home {} := by
  refine ⟨.start workingDirectory name, ?_, ?_, ?_, ?_⟩
  · intro n n' hn
    cases hn
  · intro function hfunction
    cases hfunction
  · intro n c location hc
    cases hc
  · intro id i location hi
    cases hi

private theorem unique_step (h : s.Scoped home registry) (hperform : s.Performs command answer s')
    (hkeeps : s.keepsScopes home registry command = true) (n n' : Nat)
    (hn : s'.isTyped n = true) (hn' : s'.isTyped n' = true) : n = n' := by
  by_cases hnew : n = s.recorders.size
  · by_cases hnew' : n' = s.recorders.size
    · exact hnew.trans hnew'.symm
    · exact absurd (hperform.isTyped_of_isTyped hnew' hn')
        (hperform.not_isTyped_of_new hkeeps (hnew ▸ hn))
  · have hold := hperform.isTyped_of_isTyped hnew hn
    by_cases hnew' : n' = s.recorders.size
    · exact absurd hold (hperform.not_isTyped_of_new hkeeps (hnew' ▸ hn'))
    · exact h.unique n n' hold (hperform.isTyped_of_isTyped hnew' hn')

private theorem current_step (h : s.Scoped home registry) (hperform : s.Performs command answer s')
    (hkeeps : s.keepsScopes home registry command = true) (function : FunctionId)
    (hcurrent : (s.registryAfter registry command).current = some function) :
    function ∈ (s.registryAfter registry command).functions ∧ s'.ActiveIn function := by
  rcases Classical.em (∃ n, s.isTyped n = true ∧ TellsSubprogram command n) with
    ⟨n, htyped, ⟨function', name, line, rfl⟩ | ⟨name, linkageName, line, rfl⟩⟩ | hsilent
  · obtain ⟨t, ht⟩ := isTyped_iff.mp htyped
    rw [registryAfter, if_pos htyped] at hcurrent ⊢
    cases hcurrent
    exact ⟨List.mem_cons_self, activeIn_of_markSubprogram hperform ht⟩
  · rw [registryAfter, if_pos htyped] at hcurrent
    cases hcurrent
  · rw [registryAfter_eq_self hsilent] at hcurrent ⊢
    obtain ⟨hmem, hactive⟩ := h.current function hcurrent
    exact ⟨hmem, hactive.step hperform hkeeps hmem fun n htyped htells =>
      hsilent ⟨n, htyped, htells⟩⟩

/-- What was located before is located in the same function. -/
private theorem kept_step (hperform : s.Performs command answer s')
    (hkeeps : s.keepsScopes home registry command = true)
    (h : function ∈ registry.functions ∧ s.LocatesIn location function) :
    function ∈ (s.registryAfter registry command).functions ∧ s'.LocatesIn location function :=
  ⟨mem_functions_after h.1 s command, h.2.step hperform hkeeps h.1⟩

/-- A line that a typed recorder marks is one of the function registered last. -/
private theorem marked_step {k line : Nat} {slot : RecorderSlot} (h : s.Scoped home registry)
    (hperform : s.Performs (.recorder k (.markLocation n line)) answer s')
    (hkeeps : s.keepsScopes home registry (.recorder k (.markLocation n line)) = true)
    (hslot : s.recorders[k]? = some slot) (ht : slot.recorder = .typed t)
    (hactive : t.active = some scope)
    (hnode : s'.module.graph.node? location =
      some (.debug (TypedRecorder.locationNode line scope) false)) :
    home n ∈ registry.functions ∧ s'.LocatesIn location (home n) := by
  have htyped : s.HasRecorder k (.typed t) := ⟨slot, hslot, ht⟩
  obtain ⟨-, hcurrent⟩ := of_decide_eq_true hkeeps
  obtain ⟨hmem, k', t₁, f, scope', ht₁, hf, hactive', hscope⟩ :=
    h.current (home n) (hcurrent (isTyped_iff.mpr ⟨t, htyped⟩))
  cases h.unique k k' (isTyped_iff.mpr ⟨t, htyped⟩) (isTyped_iff.mpr ⟨t₁, ht₁⟩)
  cases htyped.unique ht₁
  cases hactive.symm.trans hactive'
  obtain ⟨t', ht', hleads, -⟩ := hperform.exists_typed htyped
  obtain ⟨f', hf', hscope'⟩ := hperform.isSubprogramOf hkeeps hmem hf hscope hleads
  exact ⟨hmem, k, t', f', line, scope, ht', hf', hnode, hscope'⟩

private theorem cursors_step (h : s.Scoped home registry) (hperform : s.Performs command answer s')
    (hkeeps : s.keepsScopes home registry command = true) (n : Nat) (c : Cursor)
    (location : NodeId) (hc : s'.cursors[n]? = some c) (hlocation : c.location = some location) :
    home n ∈ (s.registryAfter registry command).functions ∧ s'.LocatesIn location (home n) := by
  cases hperform.cursorOrigin hc with
  | kept hold => exact kept_step hperform hkeeps (h.cursors n c location hold hlocation)
  | opened block hn => cases hlocation
  | @moved c₀ block hold => exact kept_step hperform hkeeps (h.cursors n c₀ location hold hlocation)
  | located location' hold =>
      cases of_decide_eq_true hkeeps
      cases hlocation
  | @marked k slot r c₀ _ event line hslot hold hmark =>
      have hkept (hsame : c = c₀) := kept_step hperform hkeeps
        (h.cursors n c₀ location hold (hsame ▸ hlocation))
      rcases Recorder.markLocation_cases hmark with
        ⟨-, -, hsame, -⟩ | ⟨t, scope, ht, hactive, -, hnew, hm, -⟩ | ⟨t, -, -, -, hsame, -⟩ |
        ⟨t, scope, -, -, -, -, -, hsame, -⟩
      · exact hkept hsame
      · have hnode := h.rooted.indexed.node?_add
          (.debug (TypedRecorder.locationNode line scope) false)
        rw [hnew] at hlocation
        cases hlocation
        have hgraph := congrArg Module.graph hm
        exact marked_step h hperform hkeeps hslot ht hactive (hgraph ▸ hnode)
      · exact hkept hsame
      · exact hkept hsame

/-- An instruction takes over the location of a cursor that is used at home. -/
private theorem emitted_step (h : s.Scoped home registry) (hperform : s.Performs command answer s')
    (hkeeps : s.keepsScopes home registry command = true) (hplace : s.place? n = some (home n))
    (hc : s.cursors[n]? = some c) (hlocation : c.location = some location) :
    ∃ function ∈ (s.registryAfter registry command).functions,
      (s'.module.block? c.block).map (·.function) = some function ∧
        s'.LocatesIn location function := by
  obtain ⟨hmem, hlocates⟩ := kept_step hperform hkeeps (h.cursors n c location hc hlocation)
  rw [place?, hc] at hplace
  exact ⟨home n, hmem, hperform.owner hplace, hlocates⟩

private theorem instrs_step (h : s.Scoped home registry) (hperform : s.Performs command answer s')
    (hkeeps : s.keepsScopes home registry command = true) (id : InstrId) (i : Instruction)
    (location : NodeId) (hi : s'.module.instruction? id = some i)
    (hlocation : i.location = some location) :
    ∃ function ∈ (s.registryAfter registry command).functions,
      (s'.module.block? i.block).map (·.function) = some function ∧
        s'.LocatesIn location function := by
  cases hperform.instructionOrigin hi with
  | kept hold =>
      obtain ⟨function, hmem, howner, hlocates⟩ := h.instrs id i location hold hlocation
      obtain ⟨hmem', hlocates'⟩ := kept_step hperform hkeeps ⟨hmem, hlocates⟩
      exact ⟨function, hmem', hperform.owner howner, hlocates'⟩
  | @attached i₀ key node hold =>
      obtain ⟨function, hmem, howner, hlocates⟩ := h.instrs id i₀ location hold hlocation
      obtain ⟨hmem', hlocates'⟩ := kept_step hperform hkeeps ⟨hmem, hlocates⟩
      exact ⟨function, hmem', hperform.owner howner, hlocates'⟩
  | emitted operation hc hblock =>
      exact h.emitted_step hperform hkeeps (of_decide_eq_true hkeeps) hc hlocation
  | marker line hslot ht hc hblock hscope hgraph =>
      exact h.emitted_step hperform hkeeps (of_decide_eq_true hkeeps).1 hc hlocation

theorem step (h : s.Scoped home registry) (hkeeps : s.keepsScopes home registry command = true)
    (hperform : s.Performs command answer s') :
    s'.Scoped home (s.registryAfter registry command) where
  rooted := h.rooted.step hperform
  unique := h.unique_step hperform hkeeps
  current := h.current_step hperform hkeeps
  cursors := h.cursors_step hperform hkeeps
  instrs := h.instrs_step hperform hkeeps

end Scoped

/-- Wherever such a driver has led: every instruction that has a location has that of a
line, which is shared and in the first column, in a subprogram, which is distinct.  The
subprogram is the one attached to the instruction's own function and has its name; it is
among those that the typed recorder has recorded, in the recorder's file and compile
unit. -/
theorem located_in_own_subprogram (home : Nat → FunctionId) (workingDirectory : List UInt8)
    (name : String) (commands : List Command)
    (hmeets : (Session.start workingDirectory name).meets registryAfter (keepsScopes home) {}
      commands = true)
    (hrun : ((Session.start workingDirectory name).run commands).2 = s) {id : InstrId}
    {i : Instruction} (hi : s.module.instruction? id = some i)
    (hlocation : i.location = some location) :
    ∃ n t function f line scope subprogram settings,
      s.HasRecorder n (.typed t) ∧ (∀ k, s.isTyped k = true → k = n) ∧
      (s.module.block? i.block).map (·.function) = some function ∧
      s.module.function? function = some f ∧
      s.module.graph.node? location = some (.debug
        ⟨.location, [("line", .int line), ("column", .int 1), ("scope", .node scope)]⟩ false) ∧
      s.module.graph.node? scope = some (.debug subprogram true) ∧
      subprogram.kind = .subprogram ∧
      f.attachments.find? "dbg" = some scope ∧
      subprogram.field? "linkageName" = some (.str f.name) ∧
      subprogram.field? "scope" = some (.node t.file) ∧
      subprogram.field? "file" = some (.node t.file) ∧
      subprogram.field? "unit" = some (.node t.unit) ∧
      scope ∈ t.subprograms ∧
      s.module.graph.node? t.file = some (.debug (TypedRecorder.fileNode t.source) false) ∧
      s.module.graph.node? t.unit = some (.debug (TypedRecorder.unitNode settings t.file) true) := by
  have hscoped := invariant_of_meets (fun h hkeeps hperform => Scoped.step h hkeeps hperform)
    (Scoped.start home workingDirectory name) hmeets
  rw [hrun] at hscoped
  obtain ⟨function, -, howner, n, t, f, line, scope, ht, hf, hnode, hattached, hrecorded,
    shown, declared, type, locals, hsubprogram⟩ := hscoped.instrs id i location hi hlocation
  obtain ⟨hfile, settings, -, hunit⟩ := hscoped.rooted.hasRecorder ht
  refine ⟨n, t, function, f, line, scope, _, settings, ht, ?_, howner, hf, hnode, hsubprogram,
    rfl, hattached, rfl, rfl, rfl, rfl, hrecorded, hfile, hunit⟩
  intro k hk
  exact hscoped.unique k n hk (isTyped_iff.mpr ⟨t, ht⟩)

/-- Two functions are registered and a line is marked in each.  Then the cursors of both
emit, that of the function registered first before the other. -/
def interleavingRun : List Command :=
  [.addFunction "first" ⟨.void, []⟩, .addFunction "second" ⟨.void, []⟩,
    .appendBlock ⟨0⟩ "entry", .appendBlock ⟨1⟩ "entry", .openCursor ⟨0⟩, .openCursor ⟨1⟩,
    .createRecorder (.fixed .modern) {} [0x2F, 0x61],
    .recorder 0 (.markSubprogram ⟨0⟩ "first" 1), .recorder 0 (.markLocation 0 2),
    .recorder 0 (.markSubprogram ⟨1⟩ "second" 5), .recorder 0 (.markLocation 1 6),
    .cursor 0 (.emit (.ret none)), .cursor 1 (.emit (.ret none))]

/-- The session after the first function is declared. -/
private def firstDeclared : Session :=
  { Session.start [] "m" with
    module := ({ name := "m" } : Module).pushFunction "first" ⟨.void, []⟩ }

/-- The session after both functions are declared. -/
private def bothDeclared : Session :=
  { firstDeclared with module := firstDeclared.module.pushFunction "second" ⟨.void, []⟩ }

/-- The instruction of the function registered first is located in its subprogram,
though the other function has been registered since. -/
theorem located_in_own_subprogram_of_interleaving :
    (Session.start [] "m").meets registryAfter (keepsScopes FunctionId.mk) {} interleavingRun =
      true ∧
    ∃ s i location line scope subprogram,
      ((Session.start [] "m").run interleavingRun).2 = s ∧
      s.module.instruction? ⟨0⟩ = some i ∧ i.location = some location ∧
      s.module.graph.node? location = some (.debug
        ⟨.location, [("line", .int line), ("column", .int 1), ("scope", .node scope)]⟩ false) ∧
      s.module.graph.node? scope = some (.debug subprogram true) ∧
      subprogram.field? "linkageName" = some (.str "first") := by
  -- No kernel computation looks a name up in an index, so the declarations are
  -- performed by their equation.
  have hfirst : (Session.start [] "m").perform (.addFunction "first" ⟨.void, []⟩) =
      .ok (.function ⟨0⟩, firstDeclared) := perform_addFunction _ Std.HashMap.contains_empty
  have hfresh : firstDeclared.module.functionIndex.contains "second" = false := by
    change ((∅ : Std.HashMap String FunctionId).insert "first" ⟨0⟩).contains "second" = false
    simp
  have hsecond : firstDeclared.perform (.addFunction "second" ⟨.void, []⟩) =
      .ok (.function ⟨1⟩, bothDeclared) := perform_addFunction _ hfresh
  have hrun : ((Session.start [] "m").run interleavingRun).2 =
      (bothDeclared.run (interleavingRun.drop 2)).2 :=
    (run_cons hfirst _).trans (run_cons hsecond _)
  have hmeets : (Session.start [] "m").meets registryAfter (keepsScopes FunctionId.mk) {}
      interleavingRun = true := by
    rw [interleavingRun, meets_cons hfirst, meets_cons hsecond]
    decide +kernel
  have hlocated : (((bothDeclared.run (interleavingRun.drop 2)).2.module.instruction? ⟨0⟩).bind
      (·.location)).isSome = true := by decide +kernel
  have howner : (bothDeclared.run (interleavingRun.drop 2)).2.module.owner? ⟨0⟩ = some ⟨0⟩ := by
    decide +kernel
  have hname : ((bothDeclared.run (interleavingRun.drop 2)).2.module.function? ⟨0⟩).map
      (·.name) = some "first" := by decide +kernel
  obtain ⟨location, hlocated⟩ := Option.isSome_iff_exists.mp hlocated
  obtain ⟨i, hi, hlocation⟩ := Option.bind_eq_some_iff.mp hlocated
  obtain ⟨n, t, function, f, line, scope, subprogram, settings, -, -, hblock, hf, hnode, hscope,
    -, -, hlinkage, -⟩ := located_in_own_subprogram FunctionId.mk [] "m" interleavingRun hmeets
      hrun hi hlocation
  rw [Module.owner?_eq_bind, hi, Option.map_some, Option.bind_some, hblock] at howner
  cases howner
  rw [hf, Option.map_some, Option.some.injEq] at hname
  rw [hname] at hlinkage
  exact ⟨hmeets, _, i, location, line, scope, subprogram, hrun, hi, hlocation, hnode, hscope,
    hlinkage⟩

end Session

end DebugMetadata

import DebugMetadata.Proofs.Graph.Sharing
import DebugMetadata.Proofs.Lines.Progress
import DebugMetadata.Proofs.Report.Reading

/-!
# The markers of a function

The location that markers give to an instruction is that of the last marker
before it in its function.  What a module grows by leaves it as it is, unless it
is such a marker itself.
-/

namespace DebugMetadata

/-! ## Markers of a function -/

namespace Module

/-- The location that an instruction of a function carries, if it is a marker. -/
def locationIn? (m : Module) (function : FunctionId) (id : InstrId) : Option NodeId :=
  if m.owner? id = some function then
    (m.instruction? id).bind (·.attachments.find? TaggedRecorder.locationKey)
  else none

/-- The location of the last marker of a function among so many instructions. -/
def lastLocation? (m : Module) (function : FunctionId) : Nat → Option NodeId
  | 0 => none
  | n + 1 => (m.locationIn? function ⟨n⟩).or (m.lastLocation? function n)

/-- The location that markers give to an instruction: that of the last marker
before it in its function. -/
def markedLocation? (m : Module) (id : InstrId) : Option NodeId :=
  (m.owner? id).bind fun function => m.lastLocation? function id.index

/-- The second module has the instructions of the first one at their places, and
its metadata. -/
structure Keeps (m m' : Module) : Prop where
  graph : m.graph.Extends m'.graph
  instrs : ∀ id i, m.instruction? id = some i → m'.instruction? id = some i
  owners : ∀ id function, m.owner? id = some function → m'.owner? id = some function

variable {m m' : Module} {function other : FunctionId} {i : Instruction}

theorem Keeps.locationIn? (h : m.Keeps m') {id : InstrId} (howner : m.owner? id = some other) :
    m'.locationIn? function id = m.locationIn? function id := by
  obtain ⟨i, hi, -⟩ := Option.bind_eq_some_iff.mp howner
  rw [Module.locationIn?, Module.locationIn?, h.owners _ _ howner, howner, h.instrs _ _ hi, hi]

theorem Keeps.lastLocation? (h : m.Keeps m') {bound : Nat}
    (howned : ∀ n < bound, ∃ other, m.owner? ⟨n⟩ = some other) :
    m'.lastLocation? function bound = m.lastLocation? function bound := by
  induction bound with
  | zero => rfl
  | succ n ih =>
      obtain ⟨other, hother⟩ := howned n (Nat.lt_succ_self n)
      rw [Module.lastLocation?, Module.lastLocation?, h.locationIn? hother,
        ih fun k hk => howned k (Nat.lt_succ_of_lt hk)]

theorem lastLocation?_eq_none {bound : Nat}
    (hother : ∀ n < bound, m.owner? ⟨n⟩ ≠ some function) :
    m.lastLocation? function bound = none := by
  induction bound with
  | zero => rfl
  | succ n ih =>
      rw [lastLocation?, locationIn?, if_neg (hother n (Nat.lt_succ_self n)), Option.none_or]
      exact ih fun k hk => hother k (Nat.lt_succ_of_lt hk)

/-! ## Growth -/

theorem block?_pushInstruction (m : Module) (i : Instruction) (id : BlockId) :
    ((m.pushInstruction i).block? id).map (·.function) = (m.block? id).map (·.function) := by
  rw [← getElem?_owners, ← getElem?_owners, (m.sameFrame_pushInstruction i).owners]

theorem keeps_graph {graph : Graph} (h : m.graph.Extends graph) : m.Keeps { m with graph } :=
  ⟨h, fun _ _ hi => hi, fun _ _ howner => howner⟩

theorem keeps_pushFunction (m : Module) (name : String) (signature : Signature) :
    m.Keeps (m.pushFunction name signature) :=
  ⟨.refl _, fun _ _ hi => hi, fun _ _ howner => howner⟩

theorem keeps_pushBlock (m : Module) (function : FunctionId) (label : String) :
    m.Keeps (m.pushBlock function label) := by
  refine ⟨.refl _, fun _ _ hi => hi, ?_⟩
  intro id other howner
  obtain ⟨i, hi, hblock⟩ := Option.bind_eq_some_iff.mp howner
  rw [← getElem?_owners] at hblock
  obtain ⟨hlt, -⟩ := List.getElem?_eq_some_iff.mp hblock
  apply Option.bind_eq_some_iff.mpr
  refine ⟨i, hi, ?_⟩
  rw [← getElem?_owners, owners_pushBlock, List.getElem?_append_left hlt]
  exact hblock

theorem keeps_pushInstruction (m : Module) (i : Instruction) : m.Keeps (m.pushInstruction i) := by
  refine ⟨.refl _, fun _ _ hi => instruction?_pushInstruction_of_some hi, ?_⟩
  intro id other howner
  obtain ⟨i', hi', hblock⟩ := Option.bind_eq_some_iff.mp howner
  apply Option.bind_eq_some_iff.mpr
  refine ⟨i', instruction?_pushInstruction_of_some hi', ?_⟩
  rw [block?_pushInstruction]
  exact hblock

theorem owner?_pushInstruction_size (h : (m.block? i.block).map (·.function) = some function) :
    (m.pushInstruction i).owner? ⟨m.instructions.size⟩ = some function := by
  apply Option.bind_eq_some_iff.mpr
  refine ⟨i, m.instruction?_pushInstruction_size i, ?_⟩
  rw [block?_pushInstruction]
  exact h

theorem locationIn?_pushInstruction_size
    (h : (m.block? i.block).map (·.function) = some function) :
    (m.pushInstruction i).locationIn? function ⟨m.instructions.size⟩ =
      i.attachments.find? TaggedRecorder.locationKey := by
  rw [locationIn?, if_pos (owner?_pushInstruction_size h), instruction?_pushInstruction_size]
  rfl

end Module

/-! ## Locations -/

namespace TaggedRecorder

open Script (Site)

/-- The node is a subprogram that refers to the function. -/
def IsScopeOf (g : Graph) (function : FunctionId) (scope : NodeId) : Prop :=
  ∃ operands, tagged? g subprogramTag scope = some operands ∧
    operands[subprogramFunctionPlace]? = some (.function function)

/-- The location is that of a line in a subprogram of a function. -/
def HasLine (g : Graph) (location : Option NodeId) (line : Nat) (function : FunctionId) : Prop :=
  ∃ node scope, location = some node ∧ g.node? node = some (.tuple (locationOperands line scope)) ∧
    IsScopeOf g function scope

/-- The location that an instruction has at a site. -/
structure LocatedAt (g : Graph) (site : Site) (location : Option NodeId) : Prop where
  unmarked : site.marked = [] → location = none
  swallowed : site.IsSwallowed → location = none
  marked : ∀ line, site.marked.getLast? = some line → ¬ site.IsSwallowed →
    HasLine g location line site.function

variable {g g' : Graph} {function : FunctionId} {scope : NodeId} {site : Site}
  {location : Option NodeId}

theorem IsScopeOf.mono (h : IsScopeOf g function scope) (hextends : g.Extends g') :
    IsScopeOf g' function scope := by
  obtain ⟨operands, htagged, hfunction⟩ := h
  refine ⟨operands, ?_, hfunction⟩
  rw [tagged?, Graph.tuple?] at htagged ⊢
  cases hnode : g.node? scope with
  | none =>
      rw [hnode] at htagged
      cases htagged
  | some node =>
      rw [hnode] at htagged
      rw [hextends.node? hnode]
      exact htagged

/-- A new subprogram is that of the function of its linkage name. -/
theorem isScopeOf_addSubprogram {m : Module} (hm : m.graph.Indexed) (r : TaggedRecorder)
    (name : String) {linkageName : String} (line : Nat)
    (hfound : m.findFunction? linkageName = some function) :
    IsScopeOf (r.addSubprogram name linkageName line m).2.2.graph function
      (r.addSubprogram name linkageName line m).1 := by
  obtain ⟨pair, context, type, locals, hnode⟩ := r.node?_addSubprogram hm name linkageName line
  refine ⟨_, tagged?_of_node? hnode rfl, ?_⟩
  rw [getElem?_subprogramOperands, hfound]
  rfl

theorem LocatedAt.mono (h : LocatedAt g site location) (hextends : g.Extends g') :
    LocatedAt g' site location := by
  refine ⟨h.unmarked, h.swallowed, ?_⟩
  intro line hline hnot
  obtain ⟨node, scope, hlocation, hnode, hscope⟩ := h.marked line hline hnot
  exact ⟨node, scope, hlocation, hextends.node? hnode, hscope.mono hextends⟩

/-- A line that repeats the last one leaves the location as it is. -/
theorem LocatedAt.mark_of_repeated (h : LocatedAt g site location) {line : Nat}
    (hlast : site.lastLine? = some line) : LocatedAt g (site.mark line) location := by
  refine ⟨?_, ?_, ?_⟩
  · intro hempty
    exact absurd hempty (List.append_ne_nil_of_right_ne_nil _ (List.cons_ne_nil _ _))
  · intro hswallowed
    rcases (Site.isSwallowed_mark_of_repeated hlast).mp hswallowed with hempty | hswallowed
    · exact h.unmarked hempty
    · exact h.swallowed hswallowed
  · intro line' hline' hnot
    rw [Site.mark, List.getLast?_concat] at hline'
    cases hline'
    rw [Site.isSwallowed_mark_of_repeated hlast, not_or] at hnot
    have hmarked := List.getLast?_eq_some_getLast hnot.1
    have hsame := hlast
    rw [Site.lastLine?, hmarked, Option.some_or] at hsame
    rw [hsame] at hmarked
    exact h.marked line hmarked hnot.2

end TaggedRecorder

end DebugMetadata

import DebugMetadata.Proofs.Commits.Flags
import DebugMetadata.Proofs.Graph.References
import DebugMetadata.Proofs.Journal.Identity
import Mathlib.Algebra.Order.BigOperators.Group.Finset

/-!
# What nodes are for

The nodes that a recorder needs are those that it is created with, a type once a function is
registered, the subprograms and the locations of the journal, and the flags once the recorder
is finalized.  Every node is counted for one of these purposes, which can be read off its form.
-/

namespace DebugMetadata

/-! ## What nodes are for -/

/-- What a node is needed for. -/
inductive Purpose where
  | own
  | type
  | subprogram
  | location
  | flag
  deriving DecidableEq, Repr

namespace Schema

/-- The tuple of the types of a subprogram. -/
def typesNode : Schema → Node
  | .modern => .tuple []
  | .legacy => .tuple TaggedRecorder.typesOperands

/-- The type of a subprogram, with a tuple of its types. -/
def typeNode (types : NodeId) : Schema → Node
  | .modern => .debug (TypedRecorder.typeNode types) false
  | .legacy => .tuple (TaggedRecorder.typeOperands types)

/-- The flags that a recorder asks for when it is finalized. -/
def flags : Schema → List ModuleFlag
  | .modern => [TypedRecorder.dwarfVersion, TypedRecorder.debugInfoVersion]
  | .legacy => [TaggedRecorder.debugInfoVersion]

/-- The number of nodes that a recorder is created with. -/
def ownCount : Schema → Nat
  | .modern => 2
  | .legacy => 4

/-- What a node is needed for, by its form.  The tuples of a tagged recorder are told apart by
their lengths. -/
def purpose : Schema → Node → Purpose
  | .modern, .debug content _ =>
    match content.kind with
    | .file | .compileUnit => .own
    | .subroutineType => .type
    | .subprogram => .subprogram
    | .location => .location
  | .modern, .tuple [] => .type
  | .modern, .tuple (_ :: _) => .flag
  | .legacy, .debug _ _ => .own
  | .legacy, .tuple operands =>
    match operands with
    | [.null] => .type
    | [_, _, _] => .flag
    | [_, _, _, _] => .location
    | _ => if operands.length = 15 then .type else if operands.length = 20 then .subprogram else .own

variable (schema : Schema)

theorem purpose_typesNode : schema.purpose schema.typesNode = .type := by
  cases schema <;> rfl

theorem purpose_typeNode (types : NodeId) : schema.purpose (schema.typeNode types) = .type := by
  cases schema <;> rfl

theorem purpose_locationNode (line : Nat) (scope : NodeId) :
    schema.purpose (schema.locationNode line scope) = .location := by
  cases schema <;> rfl

theorem purpose_flag (flag : ModuleFlag) : schema.purpose (.tuple flag.operands) = .flag := by
  cases schema <;> rfl

theorem isDistinct_typesNode : schema.typesNode.isDistinct = false := by
  cases schema <;> rfl

theorem isDistinct_typeNode (types : NodeId) : (schema.typeNode types).isDistinct = false := by
  cases schema <;> rfl

theorem typesNode_ne_typeNode (types : NodeId) : schema.typesNode ≠ schema.typeNode types := by
  cases schema <;> simp [typesNode, typeNode, TaggedRecorder.typesOperands,
    TaggedRecorder.typeOperands]

theorem nodup_flags : schema.flags.Nodup := by
  cases schema <;> decide

end Schema

namespace Graph

variable {g g' : Graph} {schema : Schema} {p : Purpose} {id : NodeId} {node : Node}

/-- The handles of the nodes that are needed for a purpose. -/
def idsFor (g : Graph) (schema : Schema) (p : Purpose) : Finset NodeId :=
  ((Finset.range g.size).image NodeId.mk).filter fun id =>
    (g.node? id).map schema.purpose = some p

theorem mem_idsFor :
    id ∈ g.idsFor schema p ↔ ∃ node, g.node? id = some node ∧ schema.purpose node = p := by
  rw [idsFor, Finset.mem_filter, Option.map_eq_some_iff, and_iff_right_iff_imp]
  rintro ⟨node, hnode, -⟩
  exact Finset.mem_image_of_mem _ (Finset.mem_range.mpr (lt_size_of_node? hnode))

theorem mem_idsFor_of_node? (h : g.node? id = some node) (hp : schema.purpose node = p) :
    id ∈ g.idsFor schema p :=
  mem_idsFor.mpr ⟨node, h, hp⟩

theorem Extends.idsFor_subset (h : g.Extends g') : g.idsFor schema p ⊆ g'.idsFor schema p := by
  intro id hid
  obtain ⟨node, hnode, hp⟩ := mem_idsFor.mp hid
  exact mem_idsFor_of_node? (h.node? hnode) hp

/-- Every node is counted for one purpose. -/
theorem size_eq_card_idsFor (g : Graph) (schema : Schema) :
    g.size = (g.idsFor schema .own).card + (g.idsFor schema .type).card +
      (g.idsFor schema .subprogram).card + (g.idsFor schema .location).card +
      (g.idsFor schema .flag).card := by
  have hinj : Function.Injective NodeId.mk := fun _ _ h => congrArg NodeId.index h
  have hfiber (p : Purpose) : ((Finset.range g.size).image NodeId.mk).filter (fun id =>
      ((g.node? id).map schema.purpose).getD .own = p) = g.idsFor schema p := by
    apply Finset.filter_congr
    intro id hid
    obtain ⟨index, hindex, rfl⟩ := Finset.mem_image.mp hid
    obtain ⟨node, hnode⟩ := exists_node? (Finset.mem_range.mp hindex)
    rw [hnode, Option.map_some, Option.getD_some, Option.some.injEq]
  have hall (p : Purpose) :
      p ∈ ({.own, .type, .subprogram, .location, .flag} : Finset Purpose) := by
    cases p <;> decide
  have hsum := Finset.card_eq_sum_card_fiberwise (s := (Finset.range g.size).image NodeId.mk)
    (f := fun id => ((g.node? id).map schema.purpose).getD .own) fun id _ => hall _
  rw [Finset.card_image_of_injective _ hinj, Finset.card_range] at hsum
  simp only [hfiber] at hsum
  rw [hsum, Finset.sum_insert (by decide), Finset.sum_insert (by decide),
    Finset.sum_insert (by decide), Finset.sum_insert (by decide), Finset.sum_singleton]
  omega

end Graph

/-! ## What a journal covers -/

/-- The graph has a type of subprograms. -/
def Schema.HasType (schema : Schema) (g : Graph) : Prop :=
  ∃ types type, g.node? types = some schema.typesNode ∧ g.node? type = some (schema.typeNode types)

namespace Journal

/-- The node is one of those of the recorder itself, or the journal has a use for it. -/
def Needs (journal : Journal) (schema : Schema) (own : List NodeId) (g : Graph) (id : NodeId)
    (node : Node) : Prop :=
  match schema.purpose node with
  | .own => id ∈ own
  | .type => journal.enrollments ≠ [] ∧ (node = schema.typesNode ∨
      ∃ types, g.node? types = some schema.typesNode ∧ node = schema.typeNode types)
  | .subprogram => id ∈ journal.enrollments.map (·.subprogram)
  | .location => id ∈ journal.placements.map (·.location)
  | .flag => journal.commits ≠ [] ∧ ∃ flag ∈ schema.flags, node = .tuple flag.operands

/-- The graph has the nodes that are needed. -/
structure Supplied (journal : Journal) (schema : Schema) (own : List NodeId) (g : Graph) :
    Prop where
  own_mem : ∀ id ∈ own, id ∈ g.idsFor schema .own
  type : journal.enrollments ≠ [] → schema.HasType g
  subprograms : ∀ e ∈ journal.enrollments, e.subprogram ∈ g.idsFor schema .subprogram
  locations : ∀ p ∈ journal.placements, p.location ∈ g.idsFor schema .location
  flags : journal.commits ≠ [] → ∀ flag ∈ schema.flags, ∃ id,
    g.node? id = some (.tuple flag.operands)

/-- The graph has the nodes that are needed, and no other ones. -/
structure Covers (journal : Journal) (schema : Schema) (own : List NodeId) (g : Graph) : Prop
    extends journal.Supplied schema own g where
  needs : ∀ id node, g.node? id = some node → journal.Needs schema own g id node

/-- The functions that were registered, each with its names and lines. -/
def subjects (journal : Journal) : Finset (FunctionId × String × Nat) :=
  (journal.enrollments.map Enrollment.subject).toFinset

/-- The lines that were located, each in its subprograms. -/
def sites (journal : Journal) : Finset (NodeId × Nat) :=
  (journal.placements.map fun p => (p.scope, p.line)).toFinset

/-- The number of nodes that are needed. -/
def nodeCount (journal : Journal) : Schema → Nat
  | .modern => 2 + (if journal.enrollments = [] then 0 else 2) + journal.enrollments.length +
      journal.sites.card + (if journal.commits = [] then 0 else 2)
  | .legacy => 4 + (if journal.enrollments = [] then 0 else 2) + journal.subjects.card +
      journal.sites.card + (if journal.commits = [] then 0 else 1)

/-- The growable lists that are needed: one of all registrations for a tagged recorder. -/
def lists (journal : Journal) : Schema → Array (Array NodeId)
  | .modern => #[]
  | .legacy => #[(journal.enrollments.map (·.subprogram)).toArray]

end Journal

/-! ## Counting -/

section

variable {α β γ : Type} [DecidableEq β] [DecidableEq γ]

/-- Two views that tell the same entries apart see equally many. -/
theorem card_toFinset_map_eq {f : α → β} {f' : α → γ} {xs : List α}
    (h : ∀ x ∈ xs, ∀ y ∈ xs, f x = f y ↔ f' x = f' y) :
    (xs.map f).toFinset.card = (xs.map f').toFinset.card := by
  induction xs with
  | nil => rfl
  | cons x xs ih =>
      have hmem : f x ∈ (xs.map f).toFinset ↔ f' x ∈ (xs.map f').toFinset := by
        rw [List.mem_toFinset, List.mem_toFinset, List.mem_map, List.mem_map]
        refine exists_congr fun y => and_congr_right fun hy => ?_
        exact h y (List.mem_cons_of_mem x hy) x List.mem_cons_self
      rw [List.map_cons, List.map_cons, List.toFinset_cons, List.toFinset_cons,
        Finset.card_insert_eq_ite, Finset.card_insert_eq_ite,
        ih fun y hy z hz => h y (List.mem_cons_of_mem x hy) z (List.mem_cons_of_mem x hz)]
      exact if_congr hmem rfl rfl

end

namespace Journal.Covers

variable {journal : Journal} {schema : Schema} {own : List NodeId} {g : Graph} {id : NodeId}
  {node : Node}

/-- What is needed for a purpose is what has its form. -/
theorem idsFor_eq_toFinset (h : journal.Covers schema own g) {p : Purpose} {ids : List NodeId}
    (hneeds : ∀ id node, g.node? id = some node → schema.purpose node = p →
      journal.Needs schema own g id node → id ∈ ids)
    (hids : ∀ id ∈ ids, id ∈ g.idsFor schema p) : g.idsFor schema p = ids.toFinset := by
  ext id
  rw [List.mem_toFinset]
  constructor
  · intro hid
    obtain ⟨node, hnode, hp⟩ := Graph.mem_idsFor.mp hid
    exact hneeds id node hnode hp (h.needs id node hnode)
  · exact hids id

theorem idsFor_own (h : journal.Covers schema own g) : g.idsFor schema .own = own.toFinset := by
  refine h.idsFor_eq_toFinset ?_ h.own_mem
  intro id node _ hp hneeds
  rwa [Needs, hp] at hneeds

theorem idsFor_subprogram (h : journal.Covers schema own g) :
    g.idsFor schema .subprogram = (journal.enrollments.map (·.subprogram)).toFinset := by
  refine h.idsFor_eq_toFinset ?_ (List.forall_mem_map.mpr h.subprograms)
  intro id node _ hp hneeds
  rwa [Needs, hp] at hneeds

theorem idsFor_location (h : journal.Covers schema own g) :
    g.idsFor schema .location = (journal.placements.map (·.location)).toFinset := by
  refine h.idsFor_eq_toFinset ?_ (List.forall_mem_map.mpr h.locations)
  intro id node _ hp hneeds
  rwa [Needs, hp] at hneeds

theorem card_idsFor_type (h : journal.Covers schema own g) (hg : g.Indexed) :
    (g.idsFor schema .type).card = if journal.enrollments = [] then 0 else 2 := by
  by_cases hnone : journal.enrollments = []
  · rw [if_pos hnone, h.idsFor_eq_toFinset (p := .type) ?_ (List.forall_mem_nil _)]
    · rfl
    · intro id node _ hp hneeds
      rw [Needs, hp] at hneeds
      exact absurd hnone hneeds.1
  · obtain ⟨types, type, htypes, htype⟩ := h.type hnone
    have hnodup : [types, type].Nodup := by
      rw [List.nodup_cons, List.mem_singleton, and_iff_left (List.nodup_singleton type)]
      rintro rfl
      exact schema.typesNode_ne_typeNode _ (Option.some.inj (htypes.symm.trans htype))
    have hids : g.idsFor schema .type = [types, type].toFinset := by
      refine h.idsFor_eq_toFinset ?_ ?_
      · intro id node hnode hp hneeds
        rw [Needs, hp] at hneeds
        rcases hneeds.2 with rfl | ⟨types', htypes', rfl⟩
        · rw [hg.eq_of_node? schema.isDistinct_typesNode hnode htypes]
          exact List.mem_cons_self
        · rw [hg.eq_of_node? schema.isDistinct_typesNode htypes' htypes] at hnode
          rw [hg.eq_of_node? (schema.isDistinct_typeNode _) hnode htype]
          exact List.mem_cons_of_mem _ List.mem_cons_self
      · rw [List.forall_mem_cons, List.forall_mem_singleton]
        exact ⟨Graph.mem_idsFor_of_node? htypes schema.purpose_typesNode,
          Graph.mem_idsFor_of_node? htype (schema.purpose_typeNode _)⟩
    rw [if_neg hnone, hids, List.toFinset_card_of_nodup hnodup]
    rfl

theorem card_idsFor_flag (h : journal.Covers schema own g) (hg : g.Indexed) :
    (g.idsFor schema .flag).card = if journal.commits = [] then 0 else schema.flags.length := by
  by_cases hnone : journal.commits = []
  · rw [if_pos hnone, h.idsFor_eq_toFinset (p := .flag) ?_ (List.forall_mem_nil _)]
    · rfl
    · intro id node _ hp hneeds
      rw [Needs, hp] at hneeds
      exact absurd hnone hneeds.1
  · have hplace (flag : ModuleFlag) : ∃ id, flag ∈ schema.flags →
        g.node? id = some (.tuple flag.operands) := by
      by_cases hflag : flag ∈ schema.flags
      · obtain ⟨id, hid⟩ := h.flags hnone flag hflag
        exact ⟨id, fun _ => hid⟩
      · exact ⟨⟨0⟩, fun hmem => absurd hmem hflag⟩
    choose place hplace using hplace
    have hids : g.idsFor schema .flag = (schema.flags.map place).toFinset := by
      refine h.idsFor_eq_toFinset ?_ ?_
      · intro id node hnode hp hneeds
        rw [Needs, hp] at hneeds
        obtain ⟨flag, hflag, rfl⟩ := hneeds.2
        exact List.mem_map.mpr ⟨flag, hflag, hg.eq_of_node? rfl (hplace flag hflag) hnode⟩
      · rw [List.forall_mem_map]
        exact fun flag hflag =>
          Graph.mem_idsFor_of_node? (hplace flag hflag) (schema.purpose_flag flag)
    have hnodup : (schema.flags.map place).Nodup := by
      refine schema.nodup_flags.map_on ?_
      intro flag hflag flag' hflag' hsame
      have hnode := hplace flag hflag
      rw [hsame, hplace flag' hflag', Option.some.injEq, Node.tuple.injEq] at hnode
      exact (ModuleFlag.operands_inj hnode).symm
    rw [if_neg hnone, hids, List.toFinset_card_of_nodup hnodup, List.length_map]

/-- The size of the graph is the number of the nodes that are needed. -/
theorem size_eq (h : journal.Covers schema own g) (hg : g.Indexed) (hown : own.Nodup) :
    g.size = own.length + (if journal.enrollments = [] then 0 else 2) +
      (journal.enrollments.map (·.subprogram)).toFinset.card +
      (journal.placements.map (·.location)).toFinset.card +
      (if journal.commits = [] then 0 else schema.flags.length) := by
  rw [g.size_eq_card_idsFor schema, h.idsFor_own, List.toFinset_card_of_nodup hown,
    h.card_idsFor_type hg, h.idsFor_subprogram, h.idsFor_location, h.card_idsFor_flag hg]

end Journal.Covers

end DebugMetadata

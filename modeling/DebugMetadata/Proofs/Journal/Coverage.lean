import DebugMetadata.Proofs.Journal.Purposes

/-!
# What a journal covers

A graph that a journal covers stays so when a recorder adds a node of its own, registers a
function, locates a line or is finalized, and the journal goes on with it.  What is added for
more than one of these, such as the type of subprograms and the flags, is added once.
-/

namespace DebugMetadata

/-! ## Types and flags -/

namespace Graph

variable {g : Graph} {node : Node} {id : NodeId}

/-- The graph after flags were asked for. -/
def addFlags (g : Graph) (flags : List ModuleFlag) : Graph :=
  flags.foldl (fun g flag => (g.addFlag flag).2) g

theorem extends_addFlags (flags : List ModuleFlag) : ∀ g : Graph, g.Extends (g.addFlags flags) := by
  induction flags with
  | nil => exact .refl
  | cons flag flags ih => exact fun g => (g.extends_addFlag flag).trans (ih _)

/-- Nothing but flags is added when flags are asked for. -/
theorem node?_addFlags_origin {flags : List ModuleFlag} : ∀ {g : Graph},
    (g.addFlags flags).node? id = some node →
      g.node? id = some node ∨ ∃ flag ∈ flags, node = .tuple flag.operands := by
  induction flags with
  | nil => exact .inl
  | cons flag flags ih =>
      intro g h
      rcases ih h with hnode | ⟨flag', hflag', rfl⟩
      · rw [node?, nodes_addFlag, ← node?] at hnode
        rcases node?_add_origin hnode with hnode | ⟨-, rfl⟩
        · exact .inl hnode
        · exact .inr ⟨flag, List.mem_cons_self, rfl⟩
      · exact .inr ⟨flag', List.mem_cons_of_mem flag hflag', rfl⟩

/-- Every flag that was asked for is there. -/
theorem Indexed.exists_node?_addFlags {flags : List ModuleFlag} : ∀ {g : Graph}, g.Indexed →
    ∀ flag ∈ flags, ∃ id, (g.addFlags flags).node? id = some (.tuple flag.operands) := by
  induction flags with
  | nil => exact fun _ flag hflag => absurd hflag List.not_mem_nil
  | cons flag flags ih =>
      intro g hg flag' hflag'
      rcases List.mem_cons.mp hflag' with rfl | hflag'
      · have hnode := hg.node?_add (.tuple flag'.operands)
        refine ⟨(g.addTuple flag'.operands).1, (extends_addFlags flags _).node? ?_⟩
        rw [node?, nodes_addFlag]
        exact hnode
      · exact ih (hg.addFlag flag) flag' hflag'

end Graph

namespace Schema

variable {schema : Schema} {g : Graph} {id : NodeId} {node : Node}

/-- The graph with what every subprogram refers to. -/
def withType (schema : Schema) (g : Graph) : Graph :=
  ((g.add schema.typesNode).2.add (schema.typeNode (g.add schema.typesNode).1)).2

theorem grows_withType (schema : Schema) (g : Graph) : g.Grows (schema.withType g) :=
  (g.grows_add _).trans (Graph.grows_add _ _)

theorem HasType.mono {g' : Graph} (h : schema.HasType g) (hextends : g.Extends g') :
    schema.HasType g' := by
  obtain ⟨types, type, htypes, htype⟩ := h
  exact ⟨types, type, hextends.node? htypes, hextends.node? htype⟩

theorem hasType_withType (hg : g.Indexed) : schema.HasType (schema.withType g) :=
  ⟨_, _, (Graph.extends_add _ _).node? (hg.node?_add _), (hg.add _).node?_add _⟩

/-- Nothing but a type with a tuple of its types is added for the type of subprograms. -/
theorem node?_withType_origin (hg : g.Indexed) (h : (schema.withType g).node? id = some node) :
    g.node? id = some node ∨ node = schema.typesNode ∨
      ∃ types, (schema.withType g).node? types = some schema.typesNode ∧
        node = schema.typeNode types := by
  rcases Graph.node?_add_origin h with h | ⟨-, rfl⟩
  · rcases Graph.node?_add_origin h with h | ⟨-, rfl⟩
    · exact .inl h
    · exact .inr (.inl rfl)
  · exact .inr (.inr ⟨_, (Graph.extends_add _ _).node? (hg.node?_add _), rfl⟩)

end Schema

namespace Journal

variable {journal journal' : Journal} {schema : Schema} {own : List NodeId} {g g' : Graph}
  {id : NodeId} {node : Node} {e : Enrollment} {p : Placement}

/-! ## Journals that go on -/

/-- The second journal says all that the first one says. -/
structure Extends (journal journal' : Journal) : Prop where
  enrollments : journal.enrollments ⊆ journal'.enrollments
  placements : journal.placements ⊆ journal'.placements
  commits : journal.commits ⊆ journal'.commits

theorem Extends.refl (journal : Journal) : journal.Extends journal :=
  ⟨List.Subset.refl _, List.Subset.refl _, List.Subset.refl _⟩

theorem extends_enroll (journal : Journal) (e : Enrollment) :
    journal.Extends (journal.enroll e) :=
  ⟨List.subset_append_left _ _, List.Subset.refl _, List.Subset.refl _⟩

theorem extends_place (journal : Journal) (p : Placement) : journal.Extends (journal.place p) :=
  ⟨List.Subset.refl _, List.subset_append_left _ _, List.Subset.refl _⟩

theorem extends_commit (journal : Journal) (n : Nat) : journal.Extends (journal.commit n) :=
  ⟨List.Subset.refl _, List.Subset.refl _, List.subset_append_left _ _⟩

theorem Needs.mono {own' : List NodeId} (h : journal.Needs schema own g id node)
    (hextends : g.Extends g') (hown : own ⊆ own') (hjournal : journal.Extends journal') :
    journal'.Needs schema own' g' id node := by
  unfold Needs at h ⊢
  cases hp : schema.purpose node with
  | own =>
      rw [hp] at h
      exact hown h
  | type =>
      rw [hp] at h
      refine ⟨fun hnil => h.1 (List.subset_nil.mp (hnil ▸ hjournal.enrollments)), ?_⟩
      exact h.2.imp_right fun ⟨types, htypes, hnode⟩ => ⟨types, hextends.node? htypes, hnode⟩
  | subprogram =>
      rw [hp] at h
      exact List.map_subset _ hjournal.enrollments h
  | location =>
      rw [hp] at h
      exact List.map_subset _ hjournal.placements h
  | flag =>
      rw [hp] at h
      exact ⟨fun hnil => h.1 (List.subset_nil.mp (hnil ▸ hjournal.commits)), h.2⟩

theorem Supplied.mono (h : journal.Supplied schema own g) (hextends : g.Extends g') :
    journal.Supplied schema own g' where
  own_mem id hid := hextends.idsFor_subset (h.own_mem id hid)
  type hsome := (h.type hsome).mono hextends
  subprograms e he := hextends.idsFor_subset (h.subprograms e he)
  locations p hp := hextends.idsFor_subset (h.locations p hp)
  flags hsome flag hflag := by
    obtain ⟨id, hid⟩ := h.flags hsome flag hflag
    exact ⟨id, hextends.node? hid⟩

namespace Covers

/-! ## Graphs that go on -/

/-- What a journal covers is told by the nodes alone. -/
theorem of_nodes_eq (h : journal.Covers schema own g) (hnodes : g'.nodes = g.nodes) :
    journal.Covers schema own g' := by
  refine ⟨h.mono (.of_nodes_eq hnodes), ?_⟩
  intro id node hnode
  rw [Graph.node?, hnodes] at hnode
  exact (h.needs id node hnode).mono (.of_nodes_eq hnodes) (List.Subset.refl _) (.refl journal)

theorem empty : Covers {} schema [] ∅ where
  own_mem := List.forall_mem_nil _
  type := absurd rfl
  subprograms := List.forall_mem_nil _
  locations := List.forall_mem_nil _
  flags := absurd rfl
  needs id node hnode := by cases hnode

/-- A node that is there for the recorder itself. -/
theorem addOwn (h : journal.Covers schema own g) (hg : g.Indexed)
    (hp : schema.purpose node = .own) :
    journal.Covers schema (own ++ [(g.add node).1]) (g.add node).2 := by
  have hextends := g.extends_add node
  have hkept := h.mono hextends
  refine { hkept with own_mem := List.forall_mem_append.mpr ⟨hkept.own_mem, ?_⟩, needs := ?_ }
  · exact List.forall_mem_singleton.mpr (Graph.mem_idsFor_of_node? (hg.node?_add node) hp)
  · intro id other hnode
    rcases Graph.node?_add_origin hnode with hnode | ⟨rfl, rfl⟩
    · exact (h.needs id other hnode).mono hextends (List.subset_append_left _ _) (.refl journal)
    · rw [Needs, hp]
      exact List.mem_concat_self

/-- A subprogram that is added comes with its type. -/
theorem enroll (h : journal.Covers schema own g) (hg : g.Indexed)
    (hp : schema.purpose node = .subprogram)
    (hid : e.subprogram = ((schema.withType g).add node).1) :
    (journal.enroll e).Covers schema own ((schema.withType g).add node).2 := by
  have htyped := schema.grows_withType g
  have hadd := (schema.withType g).extends_add node
  have hkept := h.mono (htyped.nodes.trans hadd)
  refine { hkept with
    type := fun _ => (Schema.hasType_withType hg).mono hadd
    subprograms := List.forall_mem_append.mpr ⟨hkept.subprograms, ?_⟩
    needs := ?_ }
  · rw [List.forall_mem_singleton, hid]
    exact Graph.mem_idsFor_of_node? ((htyped.indexed hg).node?_add node) hp
  · -- A new node is the subprogram, or it is there for the type of the subprogram.
    intro id other hnode
    rcases Graph.node?_add_origin hnode with hnode | ⟨rfl, rfl⟩
    · rcases Schema.node?_withType_origin hg hnode with hnode | rfl | ⟨types, htypes, rfl⟩
      · exact (h.needs id other hnode).mono (htyped.nodes.trans hadd) (List.Subset.refl _)
          (journal.extends_enroll e)
      · rw [Needs, schema.purpose_typesNode]
        exact ⟨List.concat_ne_nil _ _, .inl rfl⟩
      · rw [Needs, schema.purpose_typeNode]
        exact ⟨List.concat_ne_nil _ _, .inr ⟨types, hadd.node? htypes, rfl⟩⟩
    · rw [Needs, hp, ← hid]
      exact List.mem_map_of_mem List.mem_concat_self

theorem place (h : journal.Covers schema own g) (hg : g.Indexed)
    (hp : schema.purpose node = .location) (hid : p.location = (g.add node).1) :
    (journal.place p).Covers schema own (g.add node).2 := by
  have hextends := g.extends_add node
  have hkept := h.mono hextends
  refine { hkept with
    locations := List.forall_mem_append.mpr ⟨hkept.locations, ?_⟩
    needs := ?_ }
  · rw [List.forall_mem_singleton, hid]
    exact Graph.mem_idsFor_of_node? (hg.node?_add node) hp
  · intro id other hnode
    rcases Graph.node?_add_origin hnode with hnode | ⟨rfl, rfl⟩
    · exact (h.needs id other hnode).mono hextends (List.Subset.refl _)
        (journal.extends_place p)
    · rw [Needs, hp, ← hid]
      exact List.mem_map_of_mem List.mem_concat_self

theorem commit (h : journal.Covers schema own g) (hg : g.Indexed) (n : Nat) :
    (journal.commit n).Covers schema own (g.addFlags schema.flags) := by
  have hextends := Graph.extends_addFlags schema.flags g
  refine { h.mono hextends with flags := fun _ => hg.exists_node?_addFlags, needs := ?_ }
  intro id node hnode
  rcases Graph.node?_addFlags_origin hnode with hnode | ⟨flag, hflag, rfl⟩
  · exact (h.needs id node hnode).mono hextends (List.Subset.refl _) (journal.extends_commit n)
  · rw [Needs, schema.purpose_flag]
    exact ⟨List.concat_ne_nil _ _, flag, hflag, rfl⟩

end Covers

end Journal

/-! ## Nodes of a recorder itself -/

/-- The graph has nothing but these nodes, which a recorder has for itself. -/
def Graph.HasOwn (g : Graph) (schema : Schema) (nodes : List Node) : Prop :=
  ∃ own, own.map g.node? = nodes.map some ∧ Journal.Covers {} schema own g

namespace Graph.HasOwn

variable {g g' : Graph} {schema : Schema} {nodes : List Node}

theorem empty (schema : Schema) : (∅ : Graph).HasOwn schema [] := ⟨[], rfl, .empty⟩

theorem add (h : g.HasOwn schema nodes) (hg : g.Indexed) (node : Node)
    (hp : schema.purpose node = .own) : (g.add node).2.HasOwn schema (nodes ++ [node]) := by
  obtain ⟨own, hown, hcovers⟩ := h
  have hkept : own.map (g.add node).2.node? = own.map g.node? := by
    apply List.map_congr_left
    intro id hid
    obtain ⟨node', hnode', -⟩ := Graph.mem_idsFor.mp (hcovers.own_mem id hid)
    rw [hnode', (g.extends_add node).node? hnode']
  refine ⟨own ++ [(g.add node).1], ?_, hcovers.addOwn hg hp⟩
  rw [List.map_append, List.map_append, hkept, hown, List.map_singleton, hg.node?_add,
    List.map_singleton]

theorem of_nodes_eq (h : g.HasOwn schema nodes) (hnodes : g'.nodes = g.nodes) :
    g'.HasOwn schema nodes := by
  obtain ⟨own, hown, hcovers⟩ := h
  refine ⟨own, ?_, hcovers.of_nodes_eq hnodes⟩
  rw [← hown]
  unfold Graph.node?
  rw [hnodes]

/-- Different nodes are at different places. -/
theorem exists_covers (h : g.HasOwn schema nodes) (hnodup : nodes.Nodup) :
    ∃ own, own.Nodup ∧ own.length = nodes.length ∧ Journal.Covers {} schema own g := by
  obtain ⟨own, hown, hcovers⟩ := h
  refine ⟨own, ?_, ?_, hcovers⟩
  · apply List.Nodup.of_map g.node?
    rw [hown]
    exact hnodup.map (Option.some_injective Node)
  · have hlength := congrArg List.length hown
    rwa [List.length_map, List.length_map] at hlength

end Graph.HasOwn

end DebugMetadata

import DebugMetadata.Proofs.References.Graph
import DebugMetadata.Proofs.Session.Roots
import Mathlib.Logic.Relation

/-!
# What recorders build

A compile unit holds the list of its subprograms, and the subprograms refer to the unit's
file.  None of what a recorder writes refers to a node that holds a list: it stands above
everything else.  So no chain of references comes back to where it started, even though a
list gets nodes that are newer than the node that holds it.
-/

namespace DebugMetadata

/-- The node holds no list. -/
def Node.IsPlain (node : Node) : Prop := ∀ list, .list list ∉ node.references

theorem Node.isPlain_of_references_eq_nil {node : Node} (h : node.references = []) :
    node.IsPlain := by
  intro list hlist
  rw [h] at hlist
  exact List.not_mem_nil hlist

theorem Node.isPlain_debug (content : DebugNode) (distinct : Bool) :
    (Node.debug content distinct).IsPlain := by
  intro list hlist
  obtain ⟨⟨name, value⟩, -, href⟩ := List.mem_filterMap.mp hlist
  cases value with
  | node id => cases href
  | _ => cases href

namespace Graph

variable {functions : Nat} {g g' g'' : Graph} {node : Node} {id : NodeId} {ref : Reference}

/-- There is such a node, and it holds no list. -/
def IsPlain (g : Graph) (id : NodeId) : Prop := ∃ node, g.node? id = some node ∧ node.IsPlain

theorem IsPlain.lt (h : g.IsPlain id) : id.index < g.size := by
  obtain ⟨node, hnode, -⟩ := h
  exact lt_size_of_node? hnode

theorem IsPlain.mono (h : g.IsPlain id) (hgrows : g.Grows g') : g'.IsPlain id := by
  obtain ⟨node, hnode, hplain⟩ := h
  exact ⟨node, hgrows.nodes.node? hnode, hplain⟩

theorem Indexed.isPlain_add (hg : g.Indexed) (hplain : node.IsPlain) :
    (g.add node).2.IsPlain (g.add node).1 :=
  ⟨node, hg.node?_add node, hplain⟩

/-- The graph has what is referred to, and if that is a node it holds no list. -/
def Bears (g : Graph) (functions : Nat) : Reference → Prop
  | .node id => g.IsPlain id
  | ref => g.Has functions ref

theorem Bears.has (h : g.Bears functions ref) : g.Has functions ref := by
  cases ref with
  | node id => exact IsPlain.lt h
  | _ => exact h

/-- The second graph comes from the first one by edits that refer to no node that holds a
list, but for named lists, which may name any node. -/
inductive Builds (functions : Nat) (g : Graph) : Graph → Prop where
  | refl : Builds functions g g
  | add {g' : Graph} {node : Node} (h : Builds functions g g')
      (hrefs : ∀ ref ∈ node.references, g'.Bears functions ref) :
    Builds functions g (g'.add node).2
  | newList {g' : Graph} (h : Builds functions g g') : Builds functions g g'.newList.2
  | pushToList {g' : Graph} (list : ListId) {id : NodeId} (h : Builds functions g g')
      (hid : g'.IsPlain id) :
    Builds functions g (g'.pushToList list id)
  | addNamed {g' : Graph} (name : String) {id : NodeId} (h : Builds functions g g')
      (hid : id.index < g'.size) :
    Builds functions g (g'.addNamed name id)

/-- Nothing refers to a node that holds a list. -/
structure ListsOnTop (g : Graph) : Prop where
  nodes : ∀ id node ref, g.node? id = some node → .node ref ∈ node.references → g.IsPlain ref
  elements : ∀ list ids, g.list? list = some ids → ∀ id ∈ ids, g.IsPlain id

namespace ListsOnTop

theorem empty : (∅ : Graph).ListsOnTop := by
  refine ⟨?_, ?_⟩
  · intro id node ref hnode
    cases hnode
  · intro list ids hids
    cases hids

theorem add (h : g.ListsOnTop) (hrefs : ∀ ref ∈ node.references, g.Bears functions ref) :
    (g.add node).2.ListsOnTop := by
  have hgrows := g.grows_add node
  refine ⟨?_, ?_⟩
  · intro id other ref hother href
    rcases node?_add_cases hother with hold | ⟨-, rfl⟩
    · exact (h.nodes id other ref hold href).mono hgrows
    · exact IsPlain.mono (hrefs _ href) hgrows
  · intro list ids hids id hid
    rw [list?, lists_add] at hids
    exact (h.elements list ids hids id hid).mono hgrows

theorem newList (h : g.ListsOnTop) : g.newList.2.ListsOnTop := by
  refine ⟨h.nodes, ?_⟩
  intro list ids hids id hid
  rw [list?_newList] at hids
  split at hids
  · cases hids
    exact absurd hid (Array.not_mem_empty id)
  · exact h.elements list ids hids id hid

theorem pushToList (h : g.ListsOnTop) (list : ListId) (hid : g.IsPlain id) :
    (g.pushToList list id).ListsOnTop := by
  refine ⟨h.nodes, ?_⟩
  intro other ids hids element helement
  rw [list?_pushToList] at hids
  split at hids
  · obtain ⟨old, hold, rfl⟩ := Option.map_eq_some_iff.mp hids
    rcases Array.mem_push.mp helement with hkept | rfl
    · exact h.elements other old hold element hkept
    · exact hid
  · exact h.elements other ids hids element helement

end ListsOnTop

namespace Builds

theorem resolves (hbuilds : g.Builds functions g') (h : g.Resolves functions) :
    g'.Resolves functions := by
  induction hbuilds with
  | refl => exact h
  | add _ hrefs ih => exact ih.add fun ref href => (hrefs ref href).has
  | newList _ ih => exact ih.newList
  | pushToList list _ hid ih => exact ih.pushToList hid.lt
  | addNamed name _ hid ih => exact ih.addNamed hid

theorem listsOnTop (hbuilds : g.Builds functions g') (h : g.ListsOnTop) : g'.ListsOnTop := by
  induction hbuilds with
  | refl => exact h
  | add _ hrefs ih => exact ih.add hrefs
  | newList _ ih => exact ih.newList
  | pushToList list _ hid ih => exact ih.pushToList list hid
  | addNamed name _ _ ih => exact ⟨ih.nodes, ih.elements⟩

/-- A flag is a tuple of its own. -/
theorem addFlag (h : g.Builds functions g') (hg : g'.Indexed) (flag : ModuleFlag) :
    g.Builds functions (g'.addFlag flag).2 := by
  have hadd : g.Builds functions (g'.add (.tuple flag.operands)).2 := by
    refine h.add ?_
    intro ref href
    cases href
  rw [addFlag_eq]
  split
  · exact hadd
  · exact hadd.addNamed _ (lt_size_of_node? (hg.node?_add _))

/-- What an addition of a node that holds no list leads to, by the graph that it was added
to. -/
structure Plainly (functions : Nat) (g g' : Graph) (added : NodeId × Graph) : Prop where
  builds : g.Builds functions added.2
  isPlain : added.2.IsPlain added.1
  indexed : added.2.Indexed
  grows : g'.Grows added.2

theorem plainly (h : g.Builds functions g') (hg : g'.Indexed) (hplain : node.IsPlain)
    (hrefs : ∀ ref ∈ node.references, g'.Bears functions ref) :
    Plainly functions g g' (g'.add node) :=
  ⟨h.add hrefs, hg.isPlain_add hplain, hg.add node, g'.grows_add node⟩

/-- A tuple that refers to nothing. -/
theorem plainly_leaf (h : g.Builds functions g') (hg : g'.Indexed) {operands : List Operand}
    (hleaf : (Node.tuple operands).references = []) :
    Plainly functions g g' (g'.addTuple operands) := by
  rw [addTuple_eq_add]
  refine h.plainly hg (Node.isPlain_of_references_eq_nil hleaf) ?_
  rw [hleaf]
  exact List.forall_mem_nil _

/-- What was added last follows what was added before it. -/
theorem Plainly.after {added : NodeId × Graph} (hgrows : g'.Grows g'')
    (h : Plainly functions g g'' added) : Plainly functions g g' added :=
  { h with grows := hgrows.trans h.grows }

end Builds

/-! ## Chains of references -/

/-- The first node refers to the second one, or holds a list in which the second one is. -/
def RefersTo (g : Graph) (id ref : NodeId) : Prop :=
  ∃ node, g.node? id = some node ∧ (.node ref ∈ node.references ∨
    ∃ list ids, .list list ∈ node.references ∧ g.list? list = some ids ∧ ref ∈ ids)

variable {other : NodeId}

theorem RefersTo.isPlain (h : g.RefersTo id other) (htop : g.ListsOnTop) : g.IsPlain other := by
  obtain ⟨node, hnode, href | ⟨list, ids, -, hids, hmem⟩⟩ := h
  · exact htop.nodes id node other hnode href
  · exact htop.elements list ids hids other hmem

/-- A node that holds no list refers only to nodes before it. -/
theorem RefersTo.lt (h : g.RefersTo id other) (hdescends : g.Descends) (hplain : g.IsPlain id) :
    other.index < id.index := by
  obtain ⟨node, hnode, href | ⟨list, -, hlist, -⟩⟩ := h
  · exact hdescends id node other hnode href
  · obtain ⟨node', hnode', hplain⟩ := hplain
    cases hnode.symm.trans hnode'
    exact absurd hlist (hplain list)

/-- Whatever a chain starts with, it goes on with nodes that hold no list, and so down. -/
theorem ListsOnTop.acyclic (htop : g.ListsOnTop) (hdescends : g.Descends) (id : NodeId) :
    ¬ Relation.TransGen g.RefersTo id id := by
  have hchain : ∀ {id other}, Relation.TransGen g.RefersTo id other →
      g.IsPlain other ∧ (g.IsPlain id → other.index < id.index) := by
    intro id other h
    induction h with
    | single hstep => exact ⟨hstep.isPlain htop, hstep.lt hdescends⟩
    | tail _ hstep ih =>
        refine ⟨hstep.isPlain htop, ?_⟩
        intro hplain
        have hlt := hstep.lt hdescends ih.1
        have hlt' := ih.2 hplain
        omega
  intro hcycle
  obtain ⟨hplain, hlt⟩ := hchain hcycle
  exact Nat.lt_irrefl _ (hlt hplain)

end Graph

end DebugMetadata

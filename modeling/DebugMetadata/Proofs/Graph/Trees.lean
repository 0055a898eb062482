import DebugMetadata.Proofs.Graph.References
import DebugMetadata.Proofs.Graph.Search
import DebugMetadata.Proofs.Lists

/-!
# Nodes as trees

The graph shares a node with an equal one, and equal means written alike, handle by
handle.  If every node refers only to nodes that were returned before it, this is as good
as sharing by what a node says once all its references are followed: two nodes of the
graph are one exactly if they are one tree.
-/

namespace DebugMetadata

/-- What a node says when every reference in it is followed to the leaves. -/
inductive Tree where
  /-- A distinct node.  It stands for itself, whatever it says. -/
  | distinct (id : NodeId)
  | tuple (operands : List Tree)
  | debug (kind : NodeKind) (fields : List (String × Tree))
  /-- An operand that refers to no node.  A growable list is one, by its handle. -/
  | operand (operand : Operand)
  /-- A field's value that refers to no node. -/
  | value (value : FieldValue)

/-- The tree of an operand, by the trees of the nodes. -/
def Operand.tree? (tree? : NodeId → Option Tree) : Operand → Option Tree
  | .node id => tree? id
  | operand => some (.operand operand)

/-- The tree of a field's value, by the trees of the nodes. -/
def FieldValue.tree? (tree? : NodeId → Option Tree) : FieldValue → Option Tree
  | .node id => tree? id
  | value => some (.value value)

/-- The tree of a field under its name. -/
def fieldTree? (tree? : NodeId → Option Tree) (field : String × FieldValue) :
    Option (String × Tree) :=
  (field.2.tree? tree?).map (field.1, ·)

/-- The tree of a node under its handle, by the trees of the nodes it refers to. -/
def Node.tree? (id : NodeId) (tree? : NodeId → Option Tree) : Node → Option Tree
  | .tuple operands => (operands.mapM (Operand.tree? tree?)).map .tuple
  | .debug content false => (content.fields.mapM (fieldTree? tree?)).map (.debug content.kind)
  | .debug _ true => some (.distinct id)

/-- The tree of a node.  There is none if a reference does not lead to a node before the
one it is written in. -/
def Graph.tree? (g : Graph) (id : NodeId) : Option Tree :=
  (g.node? id).bind fun node =>
    node.tree? id fun ref => if ref.index < id.index then g.tree? ref else none
termination_by id.index

variable {tree? : NodeId → Option Tree} {id : NodeId}

/-! ## Trees of what a node is made of -/

/-- The tree is one of a node and not of an operand or a value by itself. -/
def Tree.IsOfNode : Tree → Prop
  | .operand _ | .value _ => False
  | _ => True

theorem Operand.tree?_cases {o : Operand} {tree : Tree} (h : o.tree? tree? = some tree) :
    (∃ ref, o = .node ref ∧ tree? ref = some tree) ∨ tree = .operand o := by
  cases o with
  | node ref => exact .inl ⟨ref, rfl, h⟩
  | _ => exact .inr (Option.some.inj h).symm

theorem FieldValue.tree?_cases {v : FieldValue} {tree : Tree} (h : v.tree? tree? = some tree) :
    (∃ ref, v = .node ref ∧ tree? ref = some tree) ∨ tree = .value v := by
  cases v with
  | node ref => exact .inl ⟨ref, rfl, h⟩
  | _ => exact .inr (Option.some.inj h).symm

namespace Node

variable {node node' : Node} {id' : NodeId}

theorem tree?_tuple (operands : List Operand) :
    (Node.tuple operands).tree? id tree? =
      (operands.mapM (Operand.tree? tree?)).map .tuple := rfl

theorem tree?_debug (content : DebugNode) :
    (Node.debug content false).tree? id tree? =
      (content.fields.mapM (fieldTree? tree?)).map (.debug content.kind) := rfl

/-- The form of a node is the form of its tree. -/
theorem tree?_cases {tree : Tree} (h : node.tree? id tree? = some tree) :
    (∃ operands trees, node = .tuple operands ∧ tree = .tuple trees ∧
      operands.mapM (Operand.tree? tree?) = some trees) ∨
    (∃ kind fields trees, node = .debug ⟨kind, fields⟩ false ∧ tree = .debug kind trees ∧
      fields.mapM (fieldTree? tree?) = some trees) ∨
    tree = .distinct id := by
  cases node with
  | tuple operands =>
      rw [tree?_tuple] at h
      obtain ⟨trees, htrees, rfl⟩ := Option.map_eq_some_iff.mp h
      exact .inl ⟨operands, trees, rfl, rfl, htrees⟩
  | debug content isDistinct =>
      cases isDistinct with
      | false =>
          rw [tree?_debug] at h
          obtain ⟨trees, htrees, rfl⟩ := Option.map_eq_some_iff.mp h
          exact .inr (.inl ⟨content.kind, content.fields, trees, rfl, rfl, htrees⟩)
      | true => exact .inr (.inr (Option.some.inj h).symm)

theorem isOfNode_tree? {tree : Tree} (h : node.tree? id tree? = some tree) :
    tree.IsOfNode := by
  rcases tree?_cases h with ⟨operands, trees, -, rfl, -⟩ | ⟨kind, fields, trees, -, rfl, -⟩ | rfl
  · trivial
  · trivial
  · trivial

/-! ## Nodes that have a tree -/

theorem exists_tree?
    (h : ∀ ref, .node ref ∈ node.references → ∃ tree, tree? ref = some tree) :
    ∃ tree, node.tree? id tree? = some tree := by
  cases node with
  | tuple operands =>
      have hoperands : ∀ o ∈ operands, ∃ tree, Operand.tree? tree? o = some tree := by
        intro o ho
        cases o with
        | node ref => exact h ref (mem_references_tuple ho rfl)
        | _ => exact ⟨_, rfl⟩
      obtain ⟨trees, htrees⟩ := exists_mapM_eq_some hoperands
      exact ⟨.tuple trees, by rw [tree?_tuple, htrees, Option.map_some]⟩
  | debug content isDistinct =>
      cases isDistinct with
      | true => exact ⟨.distinct id, rfl⟩
      | false =>
          have hfields : ∀ field ∈ content.fields,
              ∃ tree, fieldTree? tree? field = some tree := by
            rintro ⟨name, v⟩ hfield
            cases v with
            | node ref =>
                obtain ⟨tree, htree⟩ := h ref (mem_references_debug hfield rfl)
                exact ⟨(name, tree), congrArg (Option.map (name, ·)) htree⟩
            | _ => exact ⟨_, rfl⟩
          obtain ⟨trees, htrees⟩ := exists_mapM_eq_some hfields
          exact ⟨.debug content.kind trees, by rw [tree?_debug, htrees, Option.map_some]⟩

end Node

/-! ## Nodes told apart by their trees -/

/-- What two ways to read the trees of nodes have to agree on: they give trees of nodes,
and for the nodes that are referred to only one tree to one node. -/
structure Distinguish (tree? tree?' : NodeId → Option Tree) (refs : List Reference) : Prop where
  left : ∀ ref tree, tree? ref = some tree → tree.IsOfNode
  right : ∀ ref tree, tree?' ref = some tree → tree.IsOfNode
  inj : ∀ ref ref' tree, .node ref ∈ refs → tree? ref = some tree → tree?' ref' = some tree →
    ref = ref'

variable {tree?' : NodeId → Option Tree} {refs : List Reference}

theorem Operand.eq_of_tree?_eq (hdistinguish : Distinguish tree? tree?' refs) {o o' : Operand}
    {tree : Tree} (hrefs : ∀ ref, o.reference? = some ref → ref ∈ refs)
    (h : o.tree? tree? = some tree) (h' : o'.tree? tree?' = some tree) : o = o' := by
  rcases tree?_cases h with ⟨ref, rfl, htree⟩ | rfl
  · rcases tree?_cases h' with ⟨ref', rfl, htree'⟩ | rfl
    · exact congrArg Operand.node (hdistinguish.inj ref ref' tree (hrefs _ rfl) htree htree')
    · exact (hdistinguish.left ref _ htree).elim
  · rcases tree?_cases h' with ⟨ref', -, htree'⟩ | htree'
    · exact (hdistinguish.right ref' _ htree').elim
    · exact Tree.operand.inj htree'

theorem FieldValue.eq_of_tree?_eq (hdistinguish : Distinguish tree? tree?' refs) {v v' : FieldValue}
    {tree : Tree} (hrefs : ∀ ref, v.reference? = some ref → ref ∈ refs)
    (h : v.tree? tree? = some tree) (h' : v'.tree? tree?' = some tree) : v = v' := by
  rcases tree?_cases h with ⟨ref, rfl, htree⟩ | rfl
  · rcases tree?_cases h' with ⟨ref', rfl, htree'⟩ | rfl
    · exact congrArg FieldValue.node (hdistinguish.inj ref ref' tree (hrefs _ rfl) htree htree')
    · exact (hdistinguish.left ref _ htree).elim
  · rcases tree?_cases h' with ⟨ref', -, htree'⟩ | htree'
    · exact (hdistinguish.right ref' _ htree').elim
    · exact Tree.value.inj htree'

theorem field_eq_of_fieldTree?_eq (hdistinguish : Distinguish tree? tree?' refs)
    {field field' : String × FieldValue} {tree : String × Tree}
    (hrefs : ∀ ref, field.2.reference? = some ref → ref ∈ refs)
    (h : fieldTree? tree? field = some tree) (h' : fieldTree? tree?' field' = some tree) :
    field = field' := by
  obtain ⟨t, ht, rfl⟩ := Option.map_eq_some_iff.mp h
  obtain ⟨t', ht', hsame⟩ := Option.map_eq_some_iff.mp h'
  obtain ⟨hname, htree⟩ := Prod.mk.inj hsame
  subst htree
  exact Prod.ext hname.symm (FieldValue.eq_of_tree?_eq hdistinguish hrefs ht ht')

/-- Nodes of the same tree are written alike, or are one distinct node. -/
theorem Node.eq_of_tree?_eq {node node' : Node} {id' : NodeId} {tree : Tree}
    (hdistinguish : Distinguish tree? tree?' node.references)
    (h : node.tree? id tree? = some tree) (h' : node'.tree? id' tree?' = some tree) :
    node = node' ∧ node.isDistinct = false ∨ id = id' := by
  rcases tree?_cases h with ⟨operands, trees, rfl, rfl, hoperands⟩ |
    ⟨kind, fields, trees, rfl, rfl, hfields⟩ | rfl
  · rcases tree?_cases h' with ⟨operands', trees', rfl, htree, hoperands'⟩ |
      ⟨kind', fields', trees', -, htree, -⟩ | htree
    · cases htree
      have hsame : operands = operands' :=
        eq_of_mapM_eq (fun o ho o' tree => Operand.eq_of_tree?_eq hdistinguish fun ref href =>
          mem_references_tuple ho href) hoperands hoperands'
      exact .inl ⟨congrArg Node.tuple hsame, rfl⟩
    · cases htree
    · cases htree
  · rcases tree?_cases h' with ⟨operands', trees', -, htree, -⟩ |
      ⟨kind', fields', trees', rfl, htree, hfields'⟩ | htree
    · cases htree
    · cases htree
      have hsame : fields = fields' :=
        eq_of_mapM_eq (fun field hfield field' tree => field_eq_of_fieldTree?_eq hdistinguish
          fun ref href => mem_references_debug hfield href) hfields hfields'
      exact .inl ⟨congrArg (fun fields => Node.debug ⟨kind, fields⟩ false) hsame, rfl⟩
    · cases htree
  · rcases tree?_cases h' with ⟨operands', trees', -, htree, -⟩ |
      ⟨kind', fields', trees', -, htree, -⟩ | htree
    · cases htree
    · cases htree
    · exact .inr (Tree.distinct.inj htree)

namespace Graph

variable {g : Graph} {node : Node} {tree : Tree}

/-! ## The trees of a graph -/

theorem tree?_eq_some (h : g.tree? id = some tree) : ∃ node, g.node? id = some node ∧
    node.tree? id (fun ref => if ref.index < id.index then g.tree? ref else none) = some tree := by
  rw [tree?] at h
  exact Option.bind_eq_some_iff.mp h

theorem isOfNode_tree? (h : g.tree? id = some tree) : tree.IsOfNode := by
  obtain ⟨node, -, htree⟩ := tree?_eq_some h
  exact Node.isOfNode_tree? htree

/-- Where every node refers only to nodes before it, every node has a tree. -/
theorem Descends.exists_tree? (hg : g.Descends) (h : id.index < g.size) :
    ∃ tree, g.tree? id = some tree := by
  induction hindex : id.index using Nat.strongRecOn generalizing id with
  | ind index ih =>
      obtain ⟨node, hnode⟩ := exists_node? h
      have hrefs : ∀ ref, .node ref ∈ node.references → ∃ tree,
          (if ref.index < id.index then g.tree? ref else none) = some tree := by
        intro ref href
        have hlt := hg id node ref hnode href
        rw [if_pos hlt]
        exact ih ref.index (by omega) (by omega) rfl
      rw [tree?, hnode]
      exact Node.exists_tree? hrefs

/-- A tree is the tree of one node only. -/
theorem Indexed.eq_of_tree?_eq (hg : g.Indexed) {id' : NodeId} (h : g.tree? id = some tree)
    (h' : g.tree? id' = some tree) : id = id' := by
  induction hindex : id.index using Nat.strongRecOn generalizing id id' tree with
  | ind index ih =>
      obtain ⟨node, hnode, htree⟩ := tree?_eq_some h
      obtain ⟨node', hnode', htree'⟩ := tree?_eq_some h'
      have hdistinguish : Distinguish (fun ref => if ref.index < id.index then g.tree? ref else none)
          (fun ref => if ref.index < id'.index then g.tree? ref else none) node.references := by
        refine ⟨fun ref tree href => ?_, fun ref tree href => ?_, fun ref ref' tree _ href href' => ?_⟩
        · exact isOfNode_tree? (Option.ite_none_right_eq_some.mp href).2
        · exact isOfNode_tree? (Option.ite_none_right_eq_some.mp href).2
        · obtain ⟨hlt, hleft⟩ := Option.ite_none_right_eq_some.mp href
          obtain ⟨-, hright⟩ := Option.ite_none_right_eq_some.mp href'
          exact ih ref.index (by omega) hleft hright rfl
      rcases Node.eq_of_tree?_eq hdistinguish htree htree' with ⟨rfl, hshared⟩ | hid
      · exact hg.eq_of_node? hshared hnode hnode'
      · exact hid

/-! ## Runs of edits -/

/-- Whether the edit adds no node that refers to a node other than these. -/
def Edit.refersWithin (returned : List NodeId) : Edit → Bool
  | .add node => node.references.all fun
    | .node id => returned.contains id
    | _ => true
  | _ => true

/-- Whether every node that a run of edits adds refers only to nodes that were returned
before it, by the answers of the run.  Some of them may have been returned before the run. -/
def Edit.referBack (returned : List NodeId) : List Edit → List (Except Fault Answer) → Bool
  | edit :: edits, answer :: answers =>
    edit.refersWithin returned &&
      referBack
        (match answer with
        | .ok (.node id) => returned ++ [id]
        | _ => returned)
        edits answers
  | _, _ => true

theorem Edit.mem_of_refersWithin {returned : List NodeId} {ref : NodeId}
    (h : (Edit.add node).refersWithin returned = true) (href : .node ref ∈ node.references) :
    ref ∈ returned := by
  have hall := List.all_eq_true.mp h (.node ref) href
  exact List.contains_iff_mem.mp hall

theorem Descends.perform (hg : g.Descends) {returned : List NodeId} {edit : Edit}
    {answer : Answer} {g' : Graph} (hreturned : ∀ id ∈ returned, id.index < g.size)
    (hwithin : edit.refersWithin returned = true) (h : g.perform edit = .ok (answer, g')) :
    g'.Descends := by
  cases performs_of_ok h with
  | add node => exact hg.add fun ref href => hreturned ref (Edit.mem_of_refersWithin hwithin href)
  | _ => exact hg.of_nodes_eq rfl

/-- Only an addition returns a node, and the graph has it then. -/
theorem Indexed.lt_size_of_perform (hg : g.Indexed) {edit : Edit} {g' : Graph}
    (h : g.perform edit = .ok (.node id, g')) : id.index < g'.size := by
  cases performs_of_ok h with
  | add node => exact lt_size_of_node? (hg.node?_add node)

theorem Descends.run {edits : List Edit} (hg : g.Descends) (hindexed : g.Indexed)
    {returned : List NodeId} (hreturned : ∀ id ∈ returned, id.index < g.size)
    (hback : Edit.referBack returned edits (g.run edits).1 = true) :
    (g.run edits).2.Descends := by
  induction edits generalizing g returned with
  | nil => exact hg
  | cons edit rest ih =>
      rw [Graph.run] at hback ⊢
      cases hperform : g.perform edit with
      | error fault => exact hg
      | ok done =>
          obtain ⟨answer, g'⟩ := done
          have hgrows := grows_perform hperform
          have hkept : ∀ id ∈ returned, id.index < g'.size := fun id hid =>
            Nat.lt_of_lt_of_le (hreturned id hid) hgrows.nodes.size_le
          rw [hperform] at hback
          obtain ⟨hwithin, hrest⟩ := (Bool.and_eq_true _ _).mp hback
          refine ih (hg.perform hreturned hwithin hperform) (hgrows.indexed hindexed) ?_ hrest
          cases answer with
          | node id =>
              intro other hother
              rcases List.mem_append.mp hother with hold | hnew
              · exact hkept other hold
              · rw [List.mem_singleton.mp hnew]
                exact hindexed.lt_size_of_perform hperform
          | _ => exact hkept

/-- Wherever edits have led an empty graph, if each node that they added referred only to
nodes that were returned before it: every node has a tree, and two nodes have the same tree
exactly if they are one.  Shared nodes are so told apart by what they say, and by nothing
else. -/
theorem same_node_iff_same_tree (edits : List Edit)
    (hback : Edit.referBack [] edits ((∅ : Graph).run edits).1 = true) :
    let g := ((∅ : Graph).run edits).2
    ∀ id id' : NodeId, id.index < g.size → id'.index < g.size →
      ∃ tree tree', g.tree? id = some tree ∧ g.tree? id' = some tree' ∧
        (id = id' ↔ tree = tree') := by
  intro g id id' hid hid'
  have hdescends : g.Descends :=
    descends_empty.run indexed_empty (fun _ h => absurd h List.not_mem_nil) hback
  have hindexed : g.Indexed := (grows_run ∅ edits).indexed indexed_empty
  obtain ⟨tree, htree⟩ := hdescends.exists_tree? hid
  obtain ⟨tree', htree'⟩ := hdescends.exists_tree? hid'
  refine ⟨tree, tree', htree, htree', ?_, ?_⟩
  · rintro rfl
    exact Option.some.inj (htree.symm.trans htree')
  · rintro rfl
    exact hindexed.eq_of_tree?_eq htree htree'

/-- A pair of texts, a list, a unit that refers to both, a distinct node of the pair, the
unit once more, and a node of the unit and the distinct node. -/
def nestedEdits : List Edit :=
  [.add (.tuple [.str "a.src", .str "/tmp"]), .newList,
    .add (.tuple [.node ⟨0⟩, .list ⟨0⟩, .int 1 1]),
    .add (.debug ⟨.subprogram, [("file", .node ⟨0⟩)]⟩ true),
    .pushToList ⟨0⟩ ⟨2⟩, .add (.tuple [.node ⟨0⟩, .list ⟨0⟩, .int 1 1]),
    .add (.tuple [.node ⟨0⟩, .list ⟨0⟩, .int 32 1]), .add (.tuple [.node ⟨1⟩, .node ⟨2⟩])]

/-- The unit was added twice and is there once.  The node that differs from it by the width
of one integer only has another tree. -/
theorem same_node_iff_same_tree_of_nestedEdits :
    Edit.referBack [] nestedEdits ((∅ : Graph).run nestedEdits).1 = true ∧
    ((∅ : Graph).run nestedEdits).2.size = 5 ∧
    ∃ tree tree', ((∅ : Graph).run nestedEdits).2.tree? ⟨1⟩ = some tree ∧
      ((∅ : Graph).run nestedEdits).2.tree? ⟨3⟩ = some tree' ∧ tree ≠ tree' := by
  -- No kernel computation looks a node up in the index, so the run is read off the one
  -- that searches.
  have hrun : (∅ : Graph).contents.run nestedEdits =
      (((∅ : Graph).run nestedEdits).1, ((∅ : Graph).run nestedEdits).2.contents) :=
    indexed_empty.contents_run
  have hback : Edit.referBack [] nestedEdits ((∅ : Graph).run nestedEdits).1 = true := by
    rw [← congrArg Prod.fst hrun]
    decide +kernel
  have hsize : ((∅ : Graph).run nestedEdits).2.size = 5 := by
    have hcount : ((∅ : Graph).contents.run nestedEdits).2.nodes.size = 5 := by decide +kernel
    rwa [hrun] at hcount
  have hlt : ∀ index < 5, index < ((∅ : Graph).run nestedEdits).2.size := by
    rw [hsize]
    exact fun _ h => h
  obtain ⟨tree, tree', htree, htree', hiff⟩ :=
    same_node_iff_same_tree nestedEdits hback ⟨1⟩ ⟨3⟩ (hlt 1 (by decide)) (hlt 3 (by decide))
  refine ⟨hback, hsize, tree, tree', htree, htree', ?_⟩
  intro hsame
  cases hiff.mpr hsame

end Graph

end DebugMetadata

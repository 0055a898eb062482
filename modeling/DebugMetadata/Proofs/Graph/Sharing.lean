import DebugMetadata.Graph.Edit
import DebugMetadata.Proofs.Graph.NamedLists
import DebugMetadata.Recorder.Flag

/-!
# Sharing in the metadata graph

The two indices of a graph know exactly the nodes that are not distinct, one of them the
tuples and the other the debug nodes.  Every addition keeps it so, returns a handle of the
node that was asked for and leaves the nodes before it where they were.
-/

namespace DebugMetadata.Graph

/-- What the index of its kind finds for a node.  Distinct nodes are not asked for. -/
def shared? (g : Graph) : Node → Option NodeId
  | .tuple operands => g.sharedTuples[operands]?
  | .debug content false => g.sharedDebugs[content]?
  | .debug _ true => none

/-- The graph with a node in the index of its kind. -/
def share (g : Graph) (id : NodeId) : Node → Graph
  | .tuple operands => { g with sharedTuples := g.sharedTuples.insert operands id }
  | .debug content _ => { g with sharedDebugs := g.sharedDebugs.insert content id }

/-- The indices find exactly the nodes that are not distinct and the named lists, at their
places. -/
structure Indexed (g : Graph) : Prop where
  shared : ∀ node id, g.shared? node = some id ↔ g.node? id = some node ∧ node.isDistinct = false
  named : g.named.Agrees

/-- The nodes of the first graph are the first nodes of the second. -/
def Extends (g g' : Graph) : Prop := g.nodes.toList <+: g'.nodes.toList

/-! ## Extension -/

theorem Extends.refl (g : Graph) : g.Extends g := List.prefix_refl _

theorem Extends.trans {g g' g'' : Graph} (h : g.Extends g') (h' : g'.Extends g'') :
    g.Extends g'' :=
  List.IsPrefix.trans h h'

theorem Extends.of_nodes_eq {g g' : Graph} (h : g'.nodes = g.nodes) : g.Extends g' := by
  refine ⟨[], ?_⟩
  rw [h, List.append_nil]

theorem Extends.node? {g g' : Graph} (h : g.Extends g') {id : NodeId} {node : Node}
    (hnode : g.node? id = some node) : g'.node? id = some node := by
  obtain ⟨rest, hrest⟩ := h
  have hlt : id.index < g.nodes.toList.length := by
    obtain ⟨hlt, -⟩ := Array.getElem?_eq_some_iff.mp hnode
    simpa using hlt
  rw [Graph.node?, ← Array.getElem?_toList] at hnode ⊢
  rw [← hrest, List.getElem?_append_left hlt]
  exact hnode

theorem Extends.size_le {g g' : Graph} (h : g.Extends g') : g.size ≤ g'.size := by
  have hle := h.length_le
  rwa [Array.length_toList, Array.length_toList] at hle

theorem lt_size_of_node? {g : Graph} {id : NodeId} {node : Node}
    (h : g.node? id = some node) : id.index < g.size := by
  obtain ⟨hlt, -⟩ := Array.getElem?_eq_some_iff.mp h
  exact hlt

/-! ## Additions -/

theorem addTuple_eq_add (g : Graph) (operands : List Operand) :
    g.addTuple operands = g.add (.tuple operands) := rfl

theorem addDebug_eq_add (g : Graph) (content : DebugNode) (distinct : Bool) :
    g.addDebug content distinct = g.add (.debug content distinct) := rfl

theorem indexed_empty : (∅ : Graph).Indexed where
  shared := by
    intro node id
    have hnode : (∅ : Graph).node? id = none := Array.getElem?_eq_none (Nat.zero_le _)
    have hshared : (∅ : Graph).shared? node = none := by
      cases node with
      | tuple operands => exact Std.HashMap.getElem?_empty
      | debug content distinct =>
          cases distinct with
          | true => rfl
          | false => exact Std.HashMap.getElem?_empty
    rw [hnode, hshared]
    exact iff_of_false nofun fun h => nomatch h.1
  named := .empty

@[simp] theorem nodes_append (g : Graph) (node : Node) :
    (g.append node).2.nodes = g.nodes.push node := rfl

@[simp] theorem shared?_append (g : Graph) (node other : Node) :
    (g.append node).2.shared? other = g.shared? other := rfl

@[simp] theorem nodes_share (g : Graph) (id : NodeId) (node : Node) :
    (g.share id node).nodes = g.nodes := by
  cases node <;> rfl

@[simp] theorem lists_share (g : Graph) (id : NodeId) (node : Node) :
    (g.share id node).lists = g.lists := by
  cases node <;> rfl

@[simp] theorem named_share (g : Graph) (id : NodeId) (node : Node) :
    (g.share id node).named = g.named := by
  cases node <;> rfl

/-- A node that is not distinct and not there yet is appended and indexed. -/
theorem add_of_not_found {g : Graph} {node : Node} (hd : node.isDistinct = false)
    (h : g.shared? node = none) :
    g.add node = (⟨g.size⟩, (g.append node).2.share ⟨g.size⟩ node) := by
  cases node with
  | tuple operands =>
      have hnone : g.sharedTuples[operands]? = none := h
      rw [add, addTuple, hnone]
      rfl
  | debug content distinct =>
      cases hd
      have hnone : g.sharedDebugs[content]? = none := h
      rw [add, addDebug, if_neg Bool.false_ne_true, hnone]
      rfl

theorem add_of_found {g : Graph} {node : Node} {id : NodeId} (h : g.shared? node = some id) :
    g.add node = (id, g) := by
  cases node with
  | tuple operands =>
      have hsome : g.sharedTuples[operands]? = some id := h
      rw [add, addTuple, hsome]
  | debug content distinct =>
      cases distinct with
      | true => cases h
      | false =>
          have hsome : g.sharedDebugs[content]? = some id := h
          rw [add, addDebug, if_neg Bool.false_ne_true, hsome]

theorem add_of_isDistinct {g : Graph} {node : Node} (hd : node.isDistinct = true) :
    g.add node = g.append node := by
  cases node with
  | tuple operands => cases hd
  | debug content distinct =>
      cases hd
      rfl

/-- An addition returns the handle that it finds, or appends the node and may index it. -/
theorem add_cases (g : Graph) (node : Node) :
    (∃ id, g.shared? node = some id ∧ g.add node = (id, g)) ∨
      (g.shared? node = none ∧
        (node.isDistinct = true ∧ g.add node = g.append node ∨
          node.isDistinct = false ∧
            g.add node = (⟨g.size⟩, (g.append node).2.share ⟨g.size⟩ node))) := by
  cases h : g.shared? node with
  | some id => exact .inl ⟨id, rfl, add_of_found h⟩
  | none =>
      cases hd : node.isDistinct with
      | true => exact .inr ⟨rfl, .inl ⟨rfl, add_of_isDistinct hd⟩⟩
      | false => exact .inr ⟨rfl, .inr ⟨rfl, add_of_not_found hd h⟩⟩

/-- An addition appends the node, or changes nothing if it need not. -/
theorem nodes_add (g : Graph) (node : Node) :
    (g.add node).2.nodes = g.nodes ∨ (g.add node).2.nodes = g.nodes.push node := by
  rcases g.add_cases node with ⟨id, -, h⟩ | ⟨-, ⟨-, h⟩ | ⟨-, h⟩⟩
  · exact .inl (by rw [h])
  · exact .inr (by rw [h, nodes_append])
  · exact .inr (by rw [h, nodes_share, nodes_append])

theorem extends_append (g : Graph) (node : Node) : g.Extends (g.append node).2 := by
  rw [Extends, nodes_append, Array.toList_push]
  exact List.prefix_append _ _

theorem extends_add (g : Graph) (node : Node) : g.Extends (g.add node).2 := by
  rcases nodes_add g node with h | h
  · exact .of_nodes_eq h
  · rw [Extends, h, Array.toList_push]
    exact List.prefix_append _ _

@[simp] theorem lists_add (g : Graph) (node : Node) : (g.add node).2.lists = g.lists := by
  rcases g.add_cases node with ⟨id, -, h⟩ | ⟨-, ⟨-, h⟩ | ⟨-, h⟩⟩
  · rw [h]
  · rw [h, append]
  · rw [h, lists_share, append]

@[simp] theorem named_add (g : Graph) (node : Node) : (g.add node).2.named = g.named := by
  rcases g.add_cases node with ⟨id, -, h⟩ | ⟨-, ⟨-, h⟩ | ⟨-, h⟩⟩
  · rw [h]
  · rw [h, append]
  · rw [h, named_share, append]

theorem lists_addTuple (g : Graph) (operands : List Operand) :
    (g.addTuple operands).2.lists = g.lists :=
  g.lists_add (.tuple operands)

theorem lists_addDebug (g : Graph) (content : DebugNode) (distinct : Bool) :
    (g.addDebug content distinct).2.lists = g.lists :=
  g.lists_add (.debug content distinct)

theorem named_addTuple (g : Graph) (operands : List Operand) :
    (g.addTuple operands).2.named = g.named :=
  g.named_add (.tuple operands)

theorem named_addDebug (g : Graph) (content : DebugNode) (distinct : Bool) :
    (g.addDebug content distinct).2.named = g.named :=
  g.named_add (.debug content distinct)

/-! ## The index -/

private theorem node?_append_of_lt {g : Graph} {id : NodeId} {node other : Node}
    (h : g.node? id = some other) : (g.append node).2.node? id = some other := by
  have hlt := lt_size_of_node? h
  rw [node?_append, if_neg (by omega)]
  exact h

private theorem node?_append_iff {g : Graph} {node other : Node} (hne : node ≠ other)
    (id : NodeId) : (g.append node).2.node? id = some other ↔ g.node? id = some other := by
  constructor
  · intro h
    rw [node?_append] at h
    by_cases hid : id.index = g.size
    · rw [if_pos hid, Option.some.injEq] at h
      exact absurd h hne
    · rwa [if_neg hid] at h
  · exact node?_append_of_lt

/-- Each index finds what is put into it, and nothing that is put into the other one. -/
theorem shared?_share {g : Graph} {id : NodeId} {node : Node} (hd : node.isDistinct = false)
    (other : Node) :
    (g.share id node).shared? other = if node = other then some id else g.shared? other := by
  cases node with
  | tuple operands =>
      cases other with
      | tuple operands' => simp [share, shared?, Std.HashMap.getElem?_insert]
      | debug content distinct => cases distinct <;> rfl
  | debug content distinct =>
      cases hd
      cases other with
      | tuple operands => rfl
      | debug content' distinct' =>
          cases distinct' with
          | true => simp [shared?]
          | false => simp [share, shared?, Std.HashMap.getElem?_insert]

theorem Indexed.append {g : Graph} (hg : g.Indexed) {node : Node}
    (hd : node.isDistinct = true) : (g.append node).2.Indexed where
  shared := by
    intro other id
    rw [shared?_append, hg.shared other id]
    by_cases hother : node = other
    · subst hother
      simp [hd]
    · rw [node?_append_iff hother]
  named := hg.named

theorem Indexed.insert {g : Graph} (hg : g.Indexed) {node : Node}
    (hd : node.isDistinct = false) (hs : g.shared? node = none) :
    ((g.append node).2.share ⟨g.size⟩ node).Indexed where
  shared := by
    intro other id
    have hnodes : ((g.append node).2.share ⟨g.size⟩ node).node? id = (g.append node).2.node? id :=
      congrArg (·[id.index]?) (nodes_share _ _ _)
    rw [shared?_share hd, shared?_append, hnodes]
    by_cases hother : node = other
    · subst hother
      have hnone : g.node? id ≠ some node := by
        intro h
        have hfound := (hg.shared node id).mpr ⟨h, hd⟩
        rw [hs] at hfound
        cases hfound
      rw [if_pos rfl, node?_append]
      by_cases hid : id.index = g.size
      · obtain ⟨index⟩ := id
        simp only at hid
        simp [hid, hd]
      · rw [if_neg hid]
        constructor
        · intro h
          cases h
          exact absurd rfl hid
        · rintro ⟨h, -⟩
          exact absurd h hnone
    · rw [if_neg hother, hg.shared other id, node?_append_iff hother]
  named := by
    rw [named_share]
    exact hg.named

theorem Indexed.add {g : Graph} (hg : g.Indexed) (node : Node) : (g.add node).2.Indexed := by
  rcases g.add_cases node with ⟨id, -, h⟩ | ⟨hs, ⟨hd, h⟩ | ⟨hd, h⟩⟩
  · rw [h]
    exact hg
  · rw [h]
    exact hg.append hd
  · rw [h]
    exact hg.insert hd hs

theorem Indexed.newList {g : Graph} (hg : g.Indexed) : g.newList.2.Indexed :=
  ⟨hg.shared, hg.named⟩

theorem Indexed.pushToList {g : Graph} (hg : g.Indexed) (list : ListId) (node : NodeId) :
    (g.pushToList list node).Indexed :=
  ⟨hg.shared, hg.named⟩

theorem Indexed.addNamed {g : Graph} (hg : g.Indexed) (name : String) (node : NodeId) :
    (g.addNamed name node).Indexed :=
  ⟨hg.shared, hg.named.add name node⟩

/-- The handle an addition returns is one of the node that was added. -/
theorem Indexed.node?_add {g : Graph} (hg : g.Indexed) (node : Node) :
    (g.add node).2.node? (g.add node).1 = some node := by
  rcases g.add_cases node with ⟨id, hs, h⟩ | ⟨-, ⟨-, h⟩ | ⟨-, h⟩⟩
  · rw [h]
    exact ((hg.shared node id).mp hs).1
  · rw [h]
    exact Array.getElem?_push_size
  · rw [h, node?, nodes_share]
    exact Array.getElem?_push_size

theorem Indexed.node?_addTuple {g : Graph} (hg : g.Indexed) (operands : List Operand) :
    (g.addTuple operands).2.node? (g.addTuple operands).1 = some (.tuple operands) :=
  hg.node?_add (.tuple operands)

theorem Indexed.node?_addDebug {g : Graph} (hg : g.Indexed) (content : DebugNode)
    (distinct : Bool) :
    (g.addDebug content distinct).2.node? (g.addDebug content distinct).1 =
      some (.debug content distinct) :=
  hg.node?_add (.debug content distinct)

/-! ## Named lists -/

theorem namedNodes_empty (name : String) : (∅ : Graph).namedNodes name = #[] := by
  have hfind : (∅ : Graph).named.find? name = none := NamedLists.find?_empty name
  rw [namedNodes, hfind, Option.getD_none]

theorem Indexed.find?_named_addNamed {g : Graph} (hg : g.Indexed) (name other : String)
    (node : NodeId) :
    (g.addNamed name node).named.find? other =
      if other = name then some ((g.namedNodes name).push node) else g.named.find? other :=
  hg.named.find?_add name other node

theorem Indexed.namedNodes_addNamed {g : Graph} (hg : g.Indexed) (name other : String)
    (node : NodeId) :
    (g.addNamed name node).namedNodes other =
      if other = name then (g.namedNodes other).push node else g.namedNodes other := by
  rw [namedNodes, hg.find?_named_addNamed]
  split
  next h =>
    subst h
    rfl
  next => rfl

/-! ## Flags -/

theorem addFlag_eq (g : Graph) (flag : ModuleFlag) :
    g.addFlag flag =
      if ((g.add (.tuple flag.operands)).2.namedNodes ModuleFlag.listName).contains
          (g.add (.tuple flag.operands)).1 then
        (false, (g.add (.tuple flag.operands)).2)
      else
        (true, (g.add (.tuple flag.operands)).2.addNamed ModuleFlag.listName
          (g.add (.tuple flag.operands)).1) := rfl

theorem nodes_addFlag (g : Graph) (flag : ModuleFlag) :
    (g.addFlag flag).2.nodes = (g.add (.tuple flag.operands)).2.nodes := by
  rw [addFlag_eq]
  split <;> rfl

theorem extends_addFlag (g : Graph) (flag : ModuleFlag) : g.Extends (g.addFlag flag).2 :=
  (g.extends_add _).trans (.of_nodes_eq (g.nodes_addFlag flag))

theorem lists_addFlag (g : Graph) (flag : ModuleFlag) : (g.addFlag flag).2.lists = g.lists := by
  rw [addFlag_eq]
  split <;> exact lists_add g _

theorem Indexed.addFlag {g : Graph} (hg : g.Indexed) (flag : ModuleFlag) :
    (g.addFlag flag).2.Indexed := by
  rw [addFlag_eq]
  split
  · exact hg.add _
  · exact (hg.add _).addNamed _ _

theorem namedNodes_add (g : Graph) (node : Node) (name : String) :
    (g.add node).2.namedNodes name = g.namedNodes name := by
  rw [namedNodes, named_add, namedNodes]

theorem Indexed.namedNodes_addFlag_of_ne {g : Graph} (hg : g.Indexed) (flag : ModuleFlag)
    {name : String} (h : name ≠ ModuleFlag.listName) :
    (g.addFlag flag).2.namedNodes name = g.namedNodes name := by
  rw [addFlag_eq]
  split
  · exact g.namedNodes_add _ name
  · rw [(hg.add _).namedNodes_addNamed, if_neg h, namedNodes_add]

/-! ## Lists -/

/-- Every list of the first graph is one of the second, with its nodes first. -/
def KeepsLists (g g' : Graph) : Prop :=
  ∀ id ids, g.list? id = some ids → ∃ ids', g'.list? id = some ids' ∧ ids.toList <+: ids'.toList

theorem KeepsLists.of_lists_eq {g g' : Graph} (h : g'.lists = g.lists) : g.KeepsLists g' := by
  intro id ids hids
  refine ⟨ids, ?_, List.prefix_refl _⟩
  rw [list?, h]
  exact hids

theorem KeepsLists.trans {g g' g'' : Graph} (h : g.KeepsLists g') (h' : g'.KeepsLists g'') :
    g.KeepsLists g'' := by
  intro id ids hids
  obtain ⟨ids', hids', hprefix⟩ := h id ids hids
  obtain ⟨ids'', hids'', hprefix'⟩ := h' id ids' hids'
  exact ⟨ids'', hids'', hprefix.trans hprefix'⟩

theorem lt_lists_size_of_list? {g : Graph} {id : ListId} {ids : Array NodeId}
    (h : g.list? id = some ids) : id.index < g.lists.size := by
  obtain ⟨hlt, -⟩ := Array.getElem?_eq_some_iff.mp h
  exact hlt

theorem KeepsLists.size_le {g g' : Graph} (h : g.KeepsLists g') :
    g.lists.size ≤ g'.lists.size := by
  rcases Nat.lt_or_ge g'.lists.size g.lists.size with hlt | hle
  · have hlast : g.list? ⟨g'.lists.size⟩ = some g.lists[g'.lists.size] :=
      Array.getElem?_eq_getElem hlt
    obtain ⟨ids, hids, -⟩ := h _ _ hlast
    exact absurd (lt_lists_size_of_list? hids) (Nat.lt_irrefl _)
  · exact hle

theorem keepsLists_newList (g : Graph) : g.KeepsLists g.newList.2 := by
  intro id ids hids
  have hlt := lt_lists_size_of_list? hids
  refine ⟨ids, ?_, List.prefix_refl _⟩
  rw [list?_newList, if_neg (by omega)]
  exact hids

theorem keepsLists_pushToList (g : Graph) (list : ListId) (node : NodeId) :
    g.KeepsLists (g.pushToList list node) := by
  intro id ids hids
  rw [list?_pushToList, hids]
  by_cases hid : id = list
  · rw [if_pos hid, Option.map_some]
    refine ⟨_, rfl, ?_⟩
    rw [Array.toList_push]
    exact List.prefix_append _ _
  · rw [if_neg hid]
    exact ⟨ids, rfl, List.prefix_refl _⟩

/-! ## Growth -/

/-- The second graph has the nodes and the lists of the first one, and its indices
are as good. -/
structure Grows (g g' : Graph) : Prop where
  nodes : g.Extends g'
  lists : g.KeepsLists g'
  indexed : g.Indexed → g'.Indexed

theorem Grows.refl (g : Graph) : g.Grows g := ⟨.refl g, .of_lists_eq rfl, id⟩

theorem Grows.trans {g g' g'' : Graph} (h : g.Grows g') (h' : g'.Grows g'') : g.Grows g'' :=
  ⟨h.nodes.trans h'.nodes, h.lists.trans h'.lists, fun hg => h'.indexed (h.indexed hg)⟩

theorem grows_add (g : Graph) (node : Node) : g.Grows (g.add node).2 :=
  ⟨g.extends_add node, .of_lists_eq (g.lists_add node), fun hg => hg.add node⟩

theorem grows_addTuple (g : Graph) (operands : List Operand) :
    g.Grows (g.addTuple operands).2 :=
  g.grows_add (.tuple operands)

theorem grows_addDebug (g : Graph) (content : DebugNode) (distinct : Bool) :
    g.Grows (g.addDebug content distinct).2 :=
  g.grows_add (.debug content distinct)

theorem grows_newList (g : Graph) : g.Grows g.newList.2 :=
  ⟨.refl g, g.keepsLists_newList, fun hg => hg.newList⟩

theorem grows_pushToList (g : Graph) (list : ListId) (node : NodeId) :
    g.Grows (g.pushToList list node) :=
  ⟨.refl g, g.keepsLists_pushToList list node, fun hg => hg.pushToList list node⟩

theorem grows_addNamed (g : Graph) (name : String) (node : NodeId) :
    g.Grows (g.addNamed name node) :=
  ⟨.refl g, .of_lists_eq rfl, fun hg => hg.addNamed name node⟩

theorem grows_addFlag (g : Graph) (flag : ModuleFlag) : g.Grows (g.addFlag flag).2 :=
  ⟨g.extends_addFlag flag, .of_lists_eq (g.lists_addFlag flag), fun hg => hg.addFlag flag⟩

/-! ## Edits -/

/-- An edit that succeeds gives this answer and this graph. -/
inductive Performs (g : Graph) : Edit → Answer → Graph → Prop where
  | add (node : Node) : g.Performs (.add node) (.node (g.add node).1) (g.add node).2
  | newList : g.Performs .newList (.list ⟨g.lists.size⟩) g.newList.2
  | pushToList {list : ListId} {ids : Array NodeId} (node : NodeId)
      (hlist : g.list? list = some ids) :
    g.Performs (.pushToList list node) .done (g.pushToList list node)
  | addNamed (name : String) (node : NodeId) :
    g.Performs (.addNamed name node) .done (g.addNamed name node)

theorem performs_of_ok {g g' : Graph} {edit : Edit} {answer : Answer}
    (h : g.perform edit = .ok (answer, g')) : g.Performs edit answer g' := by
  cases edit with
  | add node =>
      cases h
      exact .add node
  | newList =>
      cases h
      exact .newList
  | pushToList list node =>
      rw [perform] at h
      split at h
      next hsome =>
        cases h
        obtain ⟨ids, hids⟩ := Option.isSome_iff_exists.mp hsome
        exact .pushToList node hids
      next => cases h
  | addNamed name node =>
      cases h
      exact .addNamed name node

/-- Only a push to a list that does not exist fails. -/
theorem perform_error_cases {g : Graph} {edit : Edit} {fault : Fault}
    (h : g.perform edit = .error fault) :
    fault = .dangling ∧ ∃ list node, edit = .pushToList list node ∧ g.list? list = none := by
  cases edit with
  | add node => cases h
  | newList => cases h
  | pushToList list node =>
      rw [perform] at h
      split at h
      next => cases h
      next hnone =>
        cases h
        exact ⟨rfl, list, node, rfl, Option.not_isSome_iff_eq_none.mp hnone⟩
  | addNamed name node => cases h

theorem grows_perform {g g' : Graph} {edit : Edit} {answer : Answer}
    (h : g.perform edit = .ok (answer, g')) : g.Grows g' := by
  cases performs_of_ok h with
  | add node => exact g.grows_add node
  | newList => exact g.grows_newList
  | pushToList node hlist => exact g.grows_pushToList _ node
  | addNamed name node => exact g.grows_addNamed name node

theorem grows_run (g : Graph) (edits : List Edit) : g.Grows (g.run edits).2 := by
  induction edits generalizing g with
  | nil => exact .refl g
  | cons edit rest ih =>
      rw [run]
      split
      next answer g' hperform => exact (grows_perform hperform).trans (ih g')
      next => exact .refl g

end DebugMetadata.Graph

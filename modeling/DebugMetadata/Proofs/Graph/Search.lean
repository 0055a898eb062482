import DebugMetadata.Proofs.Graph.Sharing

/-!
# Sharing as a search

What is written in a graph is its nodes and its lists.  The indices add nothing to
that: a graph without them, which goes through all its nodes to find an equal one and
through its named lists to find a name, gives the same answers to the same edits and has
the same contents after them.
-/

namespace DebugMetadata

/-- What is written in a graph. -/
structure Contents where
  nodes : Array Node := #[]
  lists : Array (Array NodeId) := #[]
  named : Keyed (Array NodeId) := ∅
  deriving DecidableEq, Repr

/-- A graph without its indices. -/
def Graph.contents (g : Graph) : Contents := ⟨g.nodes, g.lists, g.named.toKeyed⟩

namespace Contents

/-- The first place of a node, found by going through all of them. -/
def search? (c : Contents) (node : Node) : Option NodeId :=
  (c.nodes.findIdx? (· == node)).map NodeId.mk

def append (c : Contents) (node : Node) : NodeId × Contents :=
  (⟨c.nodes.size⟩, { c with nodes := c.nodes.push node })

/-- Adds a node.  One that is not distinct is added only if the search does not
find it. -/
def add (c : Contents) (node : Node) : NodeId × Contents :=
  if node.isDistinct then c.append node
  else
    match c.search? node with
    | some id => (id, c)
    | none => c.append node

/-- Performs an edit.  Only a push to a list that does not exist fails. -/
def perform (c : Contents) : Graph.Edit → Except Fault (Answer × Contents)
  | .add node => .ok (.node (c.add node).1, (c.add node).2)
  | .newList => .ok (.list ⟨c.lists.size⟩, { c with lists := c.lists.push #[] })
  | .pushToList list node =>
    if list.index < c.lists.size then
      .ok (.done, { c with lists := c.lists.modify list.index (·.push node) })
    else .error .dangling
  | .addNamed name node =>
    .ok (.done, { c with named := c.named.alter name fun nodes => (nodes.getD #[]).push node })

/-- Performs edits one after another, up to the first that fails. -/
def run (c : Contents) : List Graph.Edit → List (Except Fault Answer) × Contents
  | [] => ([], c)
  | edit :: rest =>
    match c.perform edit with
    | .ok (answer, c) => (.ok answer :: (c.run rest).1, (c.run rest).2)
    | .error fault => ([.error fault], c)

/-! ## The search -/

variable {c : Contents} {node : Node} {id : NodeId}

theorem getElem?_of_search? (h : c.search? node = some id) : c.nodes[id.index]? = some node := by
  obtain ⟨index, hindex, rfl⟩ := Option.map_eq_some_iff.mp h
  obtain ⟨hlt, hnode, -⟩ := Array.findIdx?_eq_some_iff_getElem.mp hindex
  rw [Array.getElem?_eq_getElem hlt, eq_of_beq hnode]

theorem not_mem_of_search? (h : c.search? node = none) : node ∉ c.nodes := by
  rw [search?, Option.map_eq_none_iff, Array.findIdx?_eq_none_iff] at h
  intro hmem
  have hne := h node hmem
  rw [beq_self_eq_true] at hne
  cases hne

end Contents

namespace Graph

variable {g : Graph} {node : Node}

/-- The indices find what the search finds. -/
theorem Indexed.shared?_eq (hg : g.Indexed) (hd : node.isDistinct = false) :
    g.shared? node = g.contents.search? node := by
  cases hsearch : g.contents.search? node with
  | some id => exact (hg.shared node id).mpr ⟨Contents.getElem?_of_search? hsearch, hd⟩
  | none =>
      cases hs : g.shared? node with
      | none => rfl
      | some id =>
          obtain ⟨hnode, -⟩ := (hg.shared node id).mp hs
          exact absurd (Array.mem_of_getElem? hnode) (Contents.not_mem_of_search? hsearch)

/-- A node that is not distinct is at one place only. -/
theorem Indexed.eq_of_node? (hg : g.Indexed) (hd : node.isDistinct = false) {id id' : NodeId}
    (h : g.node? id = some node) (h' : g.node? id' = some node) : id = id' := by
  have hid := (hg.shared node id).mpr ⟨h, hd⟩
  have hid' := (hg.shared node id').mpr ⟨h', hd⟩
  exact Option.some.inj (hid.symm.trans hid')

theorem contents_append_share (g : Graph) (id : NodeId) (node : Node) :
    ((g.append node).2.share id node).contents = (g.contents.append node).2 := by
  cases node <;> rfl

/-! ## Edits -/

theorem Indexed.contents_add (hg : g.Indexed) (node : Node) :
    g.contents.add node = ((g.add node).1, (g.add node).2.contents) := by
  cases hd : node.isDistinct with
  | true =>
      rw [Contents.add, if_pos hd, add_of_isDistinct hd]
      rfl
  | false =>
      have hshared := hg.shared?_eq hd
      rw [Contents.add, if_neg (by simp [hd])]
      cases hsearch : g.contents.search? node with
      | some id =>
          rw [add_of_found (hshared.trans hsearch)]
      | none =>
          rw [add_of_not_found hd (hshared.trans hsearch), contents_append_share]
          rfl

theorem Indexed.contents_perform (hg : g.Indexed) (edit : Edit) :
    g.contents.perform edit = (g.perform edit).map fun done => (done.1, done.2.contents) := by
  cases edit with
  | add node =>
      rw [Contents.perform, hg.contents_add node]
      rfl
  | newList => rfl
  | pushToList list node =>
      rw [Contents.perform, perform, list?]
      by_cases hlt : list.index < g.lists.size
      · rw [if_pos (show list.index < g.contents.lists.size from hlt), if_pos (by simp [hlt])]
        rfl
      · rw [if_neg (show ¬ list.index < g.contents.lists.size from hlt), if_neg (by simp [hlt])]
        rfl
  | addNamed name node =>
      have hadd := hg.named.toKeyed_add name node
      exact congrArg (fun named => Except.ok (Answer.done, Contents.mk g.nodes g.lists named))
        hadd.symm

/-- A run of edits on a graph is a run on its contents. -/
theorem Indexed.contents_run {edits : List Edit} : ∀ {g : Graph}, g.Indexed →
    g.contents.run edits = ((g.run edits).1, (g.run edits).2.contents) := by
  induction edits with
  | nil => exact fun _ => rfl
  | cons edit rest ih =>
      intro g hg
      rw [Contents.run, run, hg.contents_perform]
      cases hperform : g.perform edit with
      | error fault => rfl
      | ok done =>
          obtain ⟨answer, g'⟩ := done
          have hrest := ih ((grows_perform hperform).indexed hg)
          simp only [Except.map]
          rw [hrest]

/-! ## Additions in the words of the search -/

/-- The addition returns a place of the node that is there already and changes
nothing, or appends the node, which is nowhere yet. -/
def AddsOnce (g : Graph) (node : Node) (added : NodeId × Graph) : Prop :=
  (g.node? added.1 = some node ∧ added.2 = g) ∨
  ((∀ id, g.node? id ≠ some node) ∧ added.1 = ⟨g.size⟩ ∧
    added.2.contents = { g.contents with nodes := g.nodes.push node })

theorem Indexed.addsOnce (hg : g.Indexed) (hd : node.isDistinct = false) :
    g.AddsOnce node (g.add node) := by
  cases hs : g.shared? node with
  | some id =>
      rw [add_of_found hs]
      exact .inl ⟨((hg.shared node id).mp hs).1, rfl⟩
  | none =>
      rw [add_of_not_found hd hs]
      refine .inr ⟨?_, rfl, contents_append_share _ _ _⟩
      intro id hnode
      have hfound := (hg.shared node id).mpr ⟨hnode, hd⟩
      rw [hs] at hfound
      cases hfound

/-- The index of the tuples knows exactly these. -/
theorem Indexed.sharedTuples_iff (hg : g.Indexed) (operands : List Operand) (id : NodeId) :
    g.sharedTuples[operands]? = some id ↔ g.node? id = some (.tuple operands) :=
  (hg.shared (.tuple operands) id).trans (and_iff_left rfl)

/-- The index of the debug nodes knows exactly those that are not distinct, though it is not
told which ones are. -/
theorem Indexed.sharedDebugs_iff (hg : g.Indexed) (content : DebugNode) (id : NodeId) :
    g.sharedDebugs[content]? = some id ↔ g.node? id = some (.debug content false) :=
  (hg.shared (.debug content false) id).trans (and_iff_left rfl)

/-- Whatever edits an empty graph has gone through, it has given the answers and
has the contents of a graph that searches.  An addition that is not distinct
returns the node that is there or appends it, and one that is distinct appends it;
so no two nodes that are not distinct are equal, and the indices know exactly
these. -/
theorem index_agrees_with_search (edits : List Edit) :
    let g := ((∅ : Graph).run edits).2
    ({} : Contents).run edits = (((∅ : Graph).run edits).1, g.contents) ∧
    (∀ operands, g.AddsOnce (.tuple operands) (g.addTuple operands)) ∧
    (∀ content, g.AddsOnce (.debug content false) (g.addDebug content false)) ∧
    (∀ content, (g.addDebug content true).1 = ⟨g.size⟩ ∧
      (g.addDebug content true).2.contents =
        { g.contents with nodes := g.nodes.push (.debug content true) }) ∧
    (∀ operands id id', g.node? id = some (.tuple operands) →
      g.node? id' = some (.tuple operands) → id = id') ∧
    (∀ content id id', g.node? id = some (.debug content false) →
      g.node? id' = some (.debug content false) → id = id') ∧
    (∀ operands id,
      g.sharedTuples[operands]? = some id ↔ g.node? id = some (.tuple operands)) ∧
    (∀ content id,
      g.sharedDebugs[content]? = some id ↔ g.node? id = some (.debug content false)) ∧
    (∀ content id, g.node? id = some (.debug content true) →
      g.sharedDebugs[content]? ≠ some id) ∧
    ∀ node, (g.add node).2.node? (g.add node).1 = some node := by
  intro g
  have hg : g.Indexed := (grows_run ∅ edits).indexed indexed_empty
  refine ⟨indexed_empty.contents_run, fun operands => hg.addsOnce rfl,
    fun content => hg.addsOnce rfl, fun content => ⟨rfl, rfl⟩, ?_, ?_, hg.sharedTuples_iff,
    hg.sharedDebugs_iff, ?_, hg.node?_add⟩
  · exact fun operands id id' => hg.eq_of_node? rfl
  · exact fun content id id' => hg.eq_of_node? rfl
  · intro content id hnode hfound
    rw [(hg.sharedDebugs_iff content id).mp hfound] at hnode
    cases hnode

end Graph

end DebugMetadata

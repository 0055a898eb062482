import DebugMetadata.Proofs.Graph.References

/-!
# References within a graph

A graph resolves if everything that is referred to in it exists.  An edit that is given only
what exists keeps it so.
-/

namespace DebugMetadata

namespace Keyed

variable {α : Type} {t : Keyed α} {key : String} {f : Option α → α} {entry : String × α}

/-- An entry after an alteration was there, or has the value that was made anew. -/
theorem mem_entries_alter (h : entry ∈ (t.alter key f).entries) :
    entry ∈ t.entries ∨ entry.2 = f none ∨ ∃ old ∈ t.entries, entry.2 = f (some old.2) := by
  change entry ∈ alterEntries key f t.entries at h
  generalize t.entries = entries at h ⊢
  induction entries with
  | nil =>
      rw [List.mem_singleton.mp h]
      exact .inr (.inl rfl)
  | cons first rest ih =>
      obtain ⟨k, v⟩ := first
      unfold alterEntries at h
      split at h
      · rcases List.mem_cons.mp h with rfl | hrest
        · exact .inr (.inr ⟨(k, v), List.mem_cons_self, rfl⟩)
        · exact .inl (List.mem_cons_of_mem _ hrest)
      · rcases List.mem_cons.mp h with rfl | hrest
        · exact .inl List.mem_cons_self
        · rcases ih hrest with hold | hnew | ⟨old, hold, hnew⟩
          · exact .inl (List.mem_cons_of_mem _ hold)
          · exact .inr (.inl hnew)
          · exact .inr (.inr ⟨old, List.mem_cons_of_mem _ hold, hnew⟩)

theorem mem_entries_insert {value : α} (h : entry ∈ (t.insert key value).entries) :
    entry ∈ t.entries ∨ entry.2 = value := by
  rcases mem_entries_alter h with hold | hnew | ⟨-, -, hnew⟩
  · exact .inl hold
  · exact .inr hnew
  · exact .inr hnew

end Keyed

/-- What an edit is given. -/
def Graph.Edit.references : Graph.Edit → List Reference
  | .add node => node.references
  | .newList => []
  | .pushToList list node => [.list list, .node node]
  | .addNamed _ node => [.node node]

namespace Graph

variable {functions : Nat} {g g' : Graph} {node : Node} {id : NodeId} {ref : Reference}

/-- The graph, or the module with as many functions that it is the graph of, has what is
referred to.  Nothing in a graph refers to a block or an instruction. -/
def Has (g : Graph) (functions : Nat) : Reference → Prop
  | .node id => id.index < g.size
  | .list id => id.index < g.lists.size
  | .function id => id.index < functions
  | .block _ | .instr _ => True

/-- Everything that is referred to in the graph exists, and nodes refer to nodes before
them. -/
structure Resolves (g : Graph) (functions : Nat) : Prop where
  descends : g.Descends
  lists : ∀ id node list, g.node? id = some node → .list list ∈ node.references →
    list.index < g.lists.size
  functions : ∀ id node function, g.node? id = some node → .function function ∈ node.references →
    function.index < functions
  elements : ∀ list ids, g.list? list = some ids → ∀ id ∈ ids, id.index < g.size
  named : ∀ entry ∈ g.named.entries, ∀ id ∈ entry.2, id.index < g.size

/-! ## Edits -/

namespace Resolves

theorem empty (functions : Nat) : (∅ : Graph).Resolves functions := by
  refine ⟨descends_empty, ?_, ?_, ?_, ?_⟩
  · intro id node list hnode
    cases hnode
  · intro id node function hnode
    cases hnode
  · intro list ids hids
    cases hids
  · intro entry hentry
    cases hentry

/-- More functions do no harm. -/
theorem mono (h : g.Resolves functions) {more : Nat} (hle : functions ≤ more) : g.Resolves more where
  descends := h.descends
  lists := h.lists
  functions id node function hnode href :=
    Nat.lt_of_lt_of_le (h.functions id node function hnode href) hle
  elements := h.elements
  named := h.named

theorem add (h : g.Resolves functions) (hrefs : ∀ ref ∈ node.references, g.Has functions ref) :
    (g.add node).2.Resolves functions := by
  have hle : g.size ≤ (g.add node).2.size := (g.extends_add node).size_le
  refine ⟨h.descends.add fun ref href => hrefs _ href, ?_, ?_, ?_, ?_⟩
  · intro id other list hother href
    rw [lists_add]
    rcases node?_add_cases hother with hold | ⟨-, rfl⟩
    · exact h.lists id other list hold href
    · exact hrefs _ href
  · intro id other function hother href
    rcases node?_add_cases hother with hold | ⟨-, rfl⟩
    · exact h.functions id other function hold href
    · exact hrefs _ href
  · intro list ids hids id hid
    rw [list?, lists_add] at hids
    exact Nat.lt_of_lt_of_le (h.elements list ids hids id hid) hle
  · intro entry hentry id hid
    rw [named_add] at hentry
    exact Nat.lt_of_lt_of_le (h.named entry hentry id hid) hle

theorem newList (h : g.Resolves functions) : g.newList.2.Resolves functions := by
  have hle : g.lists.size ≤ g.newList.2.lists.size := g.keepsLists_newList.size_le
  refine ⟨h.descends, ?_, h.functions, ?_, h.named⟩
  · intro id node list hnode href
    exact Nat.lt_of_lt_of_le (h.lists id node list hnode href) hle
  · intro list ids hids id hid
    rw [list?_newList] at hids
    split at hids
    · cases hids
      exact absurd hid (Array.not_mem_empty id)
    · exact h.elements list ids hids id hid

theorem pushToList (h : g.Resolves functions) {list : ListId} (hid : id.index < g.size) :
    (g.pushToList list id).Resolves functions := by
  have hle : g.lists.size ≤ (g.pushToList list id).lists.size :=
    (g.keepsLists_pushToList list id).size_le
  refine ⟨h.descends, ?_, h.functions, ?_, h.named⟩
  · intro other node list hnode href
    exact Nat.lt_of_lt_of_le (h.lists other node list hnode href) hle
  · intro other ids hids element helement
    rw [list?_pushToList] at hids
    split at hids
    · obtain ⟨old, hold, rfl⟩ := Option.map_eq_some_iff.mp hids
      rcases Array.mem_push.mp helement with hkept | rfl
      · exact h.elements other old hold element hkept
      · exact hid
    · exact h.elements other ids hids element helement

theorem addNamed (h : g.Resolves functions) {name : String} (hid : id.index < g.size) :
    (g.addNamed name id).Resolves functions := by
  refine ⟨h.descends, h.lists, h.functions, h.elements, ?_⟩
  intro entry hentry element helement
  rcases NamedLists.mem_of_mem_add hentry helement with rfl | ⟨old, hold, hkept⟩
  · exact hid
  · exact h.named old hold element hkept

/-- After an edit that is given what exists everything exists still. -/
theorem perform (h : g.Resolves functions) {edit : Edit} {answer : Answer}
    (hrefs : ∀ ref ∈ edit.references, g.Has functions ref)
    (hperform : g.perform edit = .ok (answer, g')) : g'.Resolves functions := by
  cases performs_of_ok hperform with
  | add node => exact h.add hrefs
  | newList => exact h.newList
  | pushToList node hlist =>
      exact h.pushToList (hrefs (.node node) (List.mem_cons_of_mem _ List.mem_cons_self))
  | addNamed name node => exact h.addNamed (hrefs (.node node) List.mem_cons_self)

end Resolves

end Graph

end DebugMetadata

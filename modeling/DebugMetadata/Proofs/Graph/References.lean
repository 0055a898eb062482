import DebugMetadata.Proofs.Graph.Sharing

/-!
# References between nodes

What a node refers to, and the graphs in which every node refers only to nodes before
it.  An addition keeps a graph so if what it adds refers only to nodes that are there,
and nothing but an addition can break it.
-/

namespace DebugMetadata

/-- A handle of any kind. -/
inductive Reference where
  | function (id : FunctionId)
  | block (id : BlockId)
  | instr (id : InstrId)
  | node (id : NodeId)
  | list (id : ListId)
  deriving DecidableEq, Repr

def Operand.reference? : Operand → Option Reference
  | .node id => some (.node id)
  | .function id => some (.function id)
  | .list id => some (.list id)
  | _ => none

def FieldValue.reference? : FieldValue → Option Reference
  | .node id => some (.node id)
  | _ => none

/-- What a node refers to, in the order in which it is written. -/
def Node.references : Node → List Reference
  | .tuple operands => operands.filterMap (·.reference?)
  | .debug content _ => content.fields.filterMap fun field => field.2.reference?

theorem Node.mem_references_tuple {operands : List Operand} {o : Operand} {ref : Reference}
    (ho : o ∈ operands) (href : o.reference? = some ref) :
    ref ∈ (Node.tuple operands).references :=
  List.mem_filterMap.mpr ⟨o, ho, href⟩

theorem Node.mem_references_debug {content : DebugNode} {distinct : Bool}
    {field : String × FieldValue} {ref : Reference} (hfield : field ∈ content.fields)
    (href : field.2.reference? = some ref) :
    ref ∈ (Node.debug content distinct).references :=
  List.mem_filterMap.mpr ⟨field, hfield, href⟩

namespace Graph

variable {g g' : Graph} {node other : Node} {id : NodeId}

/-- A node of the graph after an addition was there, or is the one that was appended. -/
theorem node?_add_cases (h : (g.add node).2.node? id = some other) :
    g.node? id = some other ∨ id.index = g.size ∧ other = node := by
  rw [node?] at h
  rcases nodes_add g node with hnodes | hnodes
  · rw [hnodes] at h
    exact .inl h
  · rw [hnodes, Array.getElem?_push] at h
    by_cases hid : id.index = g.nodes.size
    · rw [if_pos hid] at h
      exact .inr ⟨hid, (Option.some.inj h).symm⟩
    · rw [if_neg hid] at h
      exact .inl h

/-- A node that is there only after an addition is at the handle that the addition returns. -/
theorem node?_add_origin (h : (g.add node).2.node? id = some other) :
    g.node? id = some other ∨ id = (g.add node).1 ∧ other = node := by
  have happend {g' : Graph} (hnodes : g'.nodes = g.nodes.push node)
      (h : g'.node? id = some other) :
      g.node? id = some other ∨ id = ⟨g.size⟩ ∧ other = node := by
    rw [node?, hnodes, Array.getElem?_push] at h
    obtain ⟨index⟩ := id
    split at h
    next hid => exact .inr ⟨congrArg NodeId.mk hid, (Option.some.inj h).symm⟩
    next => exact .inl h
  rcases g.add_cases node with ⟨found, -, hadd⟩ | ⟨-, ⟨-, hadd⟩ | ⟨-, hadd⟩⟩
  · rw [hadd] at h
    exact .inl h
  · rw [hadd] at h ⊢
    exact happend rfl h
  · rw [hadd] at h ⊢
    exact happend (nodes_share _ _ _) h

theorem exists_node? (h : id.index < g.size) : ∃ node, g.node? id = some node :=
  ⟨_, Array.getElem?_eq_getElem h⟩

/-- Every node refers only to nodes before it. -/
def Descends (g : Graph) : Prop :=
  ∀ id node ref, g.node? id = some node → .node ref ∈ node.references → ref.index < id.index

theorem descends_empty : (∅ : Graph).Descends := by
  intro id node ref hnode
  cases hnode

theorem Descends.of_nodes_eq (h : g.Descends) (hnodes : g'.nodes = g.nodes) : g'.Descends := by
  intro id node ref hnode
  rw [node?, hnodes] at hnode
  exact h id node ref hnode

theorem Descends.add (h : g.Descends)
    (hrefs : ∀ ref, .node ref ∈ node.references → ref.index < g.size) :
    (g.add node).2.Descends := by
  intro id other ref hother href
  rcases node?_add_cases hother with hold | ⟨hid, rfl⟩
  · exact h id other ref hold href
  · rw [hid]
    exact hrefs ref href

end Graph

end DebugMetadata

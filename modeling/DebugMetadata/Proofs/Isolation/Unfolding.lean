import Mathlib.Data.List.Forall2
import DebugMetadata.Proofs.Graph.Sharing

/-!
# Unfolding

Two graphs may say the same under different handles: one has nodes between that the
other has not, or shares a node where the other appends one.  What a node says is read
by following every handle.  A relation between the handles of two graphs under which
related nodes differ only in related handles is enough for related nodes to say the
same, and it can be carried along while both graphs grow.
-/

namespace DebugMetadata

/-- What a node says when every handle in it is followed, down to some depth. -/
inductive Unfolding where
  /-- The depth is used up or the handle is dangling. -/
  | cut
  | tuple (operands : List Unfolding)
  | debug (kind : NodeKind) (distinct : Bool) (fields : List (String × Unfolding))
  /-- An operand that refers to nothing in the graph. -/
  | operand (operand : Operand)
  /-- A field's value that refers to nothing in the graph. -/
  | value (value : FieldValue)
  /-- A growable list by its content. -/
  | list (nodes : List Unfolding)

namespace Graph

def unfoldOperand (g : Graph) (unfold : NodeId → Unfolding) : Operand → Unfolding
  | .node id => unfold id
  | .list id => (g.list? id).elim .cut fun ids => .list (ids.toList.map unfold)
  | operand => .operand operand

def unfoldValue (unfold : NodeId → Unfolding) : FieldValue → Unfolding
  | .node id => unfold id
  | value => .value value

/-- Unfolds a node down to a depth. -/
def unfold (g : Graph) : Nat → NodeId → Unfolding
  | 0, _ => .cut
  | depth + 1, id =>
    match g.node? id with
    | none => .cut
    | some (.tuple operands) => .tuple (operands.map (g.unfoldOperand (g.unfold depth)))
    | some (.debug content distinct) =>
      .debug content.kind distinct
        (content.fields.map fun field => (field.1, unfoldValue (g.unfold depth) field.2))

end Graph

/-! ## Nodes that differ in handles alone -/

variable {R R' : NodeId → NodeId → Prop} {L L' : ListId → ListId → Prop}

/-- The operands are equal or related handles. -/
inductive Operand.Alike (R : NodeId → NodeId → Prop) (L : ListId → ListId → Prop) :
    Operand → Operand → Prop where
  | int (bits : Nat) (value : Int) : Alike R L (.int bits value) (.int bits value)
  | str (text : String) : Alike R L (.str text) (.str text)
  | node {id id' : NodeId} (h : R id id') : Alike R L (.node id) (.node id')
  | null : Alike R L .null .null
  | function (id : FunctionId) : Alike R L (.function id) (.function id)
  | list {id id' : ListId} (h : L id id') : Alike R L (.list id) (.list id')

/-- The values are equal or related handles. -/
inductive FieldValue.Alike (R : NodeId → NodeId → Prop) : FieldValue → FieldValue → Prop where
  | int (value : Int) : Alike R (.int value) (.int value)
  | bool (value : Bool) : Alike R (.bool value) (.bool value)
  | str (text : String) : Alike R (.str text) (.str text)
  | token (name : String) : Alike R (.token name) (.token name)
  | node {id id' : NodeId} (h : R id id') : Alike R (.node id) (.node id')

/-- The fields have the same name and values that are equal or related handles. -/
def FieldAlike (R : NodeId → NodeId → Prop) (field field' : String × FieldValue) : Prop :=
  field.1 = field'.1 ∧ field.2.Alike R field'.2

/-- The nodes differ only in handles, which are related. -/
inductive Node.Alike (R : NodeId → NodeId → Prop) (L : ListId → ListId → Prop) :
    Node → Node → Prop where
  | tuple {operands operands' : List Operand}
      (h : List.Forall₂ (Operand.Alike R L) operands operands') :
    Alike R L (.tuple operands) (.tuple operands')
  | debug (kind : NodeKind) (distinct : Bool) {fields fields' : List (String × FieldValue)}
      (h : List.Forall₂ (FieldAlike R) fields fields') :
    Alike R L (.debug ⟨kind, fields⟩ distinct) (.debug ⟨kind, fields'⟩ distinct)

namespace Operand

@[simp] theorem alike_node {id id' : NodeId} :
    Operand.Alike R L (.node id) (.node id') ↔ R id id' :=
  ⟨fun h => by cases h; assumption, .node⟩

@[simp] theorem alike_list {id id' : ListId} :
    Operand.Alike R L (.list id) (.list id') ↔ L id id' :=
  ⟨fun h => by cases h; assumption, .list⟩

@[simp] theorem alike_i32 (value : Int) : Operand.Alike R L (i32 value) (i32 value) := .int _ _

@[simp] theorem alike_i64 (value : Int) : Operand.Alike R L (i64 value) (i64 value) := .int _ _

@[simp] theorem alike_i1 (value : Bool) : Operand.Alike R L (i1 value) (i1 value) := .int _ _

@[simp] theorem alike_str (text : String) : Operand.Alike R L (.str text) (.str text) := .str _

@[simp] theorem alike_null : Operand.Alike R L .null .null := .null

@[simp] theorem alike_function? (function : Option FunctionId) :
    Operand.Alike R L (function.elim .null .function) (function.elim .null .function) := by
  cases function with
  | none => exact .null
  | some id => exact .function id

end Operand

namespace FieldValue

@[simp] theorem alike_node {id id' : NodeId} :
    FieldValue.Alike R (.node id) (.node id') ↔ R id id' :=
  ⟨fun h => by cases h; assumption, .node⟩

@[simp] theorem alike_int (value : Int) : FieldValue.Alike R (.int value) (.int value) := .int _

@[simp] theorem alike_bool (value : Bool) : FieldValue.Alike R (.bool value) (.bool value) :=
  .bool _

@[simp] theorem alike_str (text : String) : FieldValue.Alike R (.str text) (.str text) := .str _

@[simp] theorem alike_token (name : String) : FieldValue.Alike R (.token name) (.token name) :=
  .token _

end FieldValue

theorem Operand.Alike.mono {o o' : Operand} (h : o.Alike R L o')
    (hR : ∀ id id', R id id' → R' id id') (hL : ∀ id id', L id id' → L' id id') :
    o.Alike R' L' o' := by
  cases h with
  | node h => exact .node (hR _ _ h)
  | list h => exact .list (hL _ _ h)
  | _ => constructor

theorem FieldValue.Alike.mono {v v' : FieldValue} (h : v.Alike R v')
    (hR : ∀ id id', R id id' → R' id id') : v.Alike R' v' := by
  cases h with
  | node h => exact .node (hR _ _ h)
  | _ => constructor

theorem Node.Alike.mono {node node' : Node} (h : node.Alike R L node')
    (hR : ∀ id id', R id id' → R' id id') (hL : ∀ id id', L id id' → L' id id') :
    node.Alike R' L' node' := by
  cases h with
  | tuple h => exact .tuple (h.imp fun _ _ h => h.mono hR hL)
  | debug kind distinct h => exact .debug kind distinct (h.imp fun _ _ h => ⟨h.1, h.2.mono hR⟩)

/-! ## Graphs with related handles -/

theorem map_eq_map_of_forall₂ {α β γ : Type} {S : α → β → Prop} {f : α → γ} {f' : β → γ}
    {xs : List α} {ys : List β} (h : List.Forall₂ S xs ys) (hf : ∀ x y, S x y → f x = f' y) :
    xs.map f = ys.map f' := by
  rw [← List.forall₂_eq_eq_eq, List.forall₂_map_left_iff, List.forall₂_map_right_iff]
  exact h.imp hf

namespace Graph

variable {g g' h h' : Graph} {id id' : NodeId} {list list' : ListId} {node node' : Node}

/-- Related nodes of the graphs are alike, and related lists have related nodes in
order.  No list is related to two. -/
structure Alike (R : NodeId → NodeId → Prop) (L : ListId → ListId → Prop) (g g' : Graph) :
    Prop where
  indexed : g.Indexed
  indexed' : g'.Indexed
  nodes : ∀ {id id'}, R id id' → ∃ node node', g.node? id = some node ∧
    g'.node? id' = some node' ∧ node.Alike R L node'
  lists : ∀ {list list'}, L list list' → ∃ ids ids', g.list? list = some ids ∧
    g'.list? list' = some ids' ∧ List.Forall₂ R ids.toList ids'.toList
  injective : ∀ {list list' other other'}, L list list' → L other other' →
    (list = other ↔ list' = other')

namespace Alike

/-! ### Related nodes say the same -/

theorem unfoldOperand_eq (h : g.Alike R L g') {unfold unfold' : NodeId → Unfolding}
    (hunfold : ∀ id id', R id id' → unfold id = unfold' id') {o o' : Operand}
    (ho : o.Alike R L o') : g.unfoldOperand unfold o = g'.unfoldOperand unfold' o' := by
  cases ho with
  | node hid => exact hunfold _ _ hid
  | list hlist =>
      obtain ⟨ids, ids', hids, hids', hnodes⟩ := h.lists hlist
      simp only [unfoldOperand, hids, hids', Option.elim_some, map_eq_map_of_forall₂ hnodes hunfold]
  | _ => rfl

theorem unfoldValue_eq {unfold unfold' : NodeId → Unfolding}
    (hunfold : ∀ id id', R id id' → unfold id = unfold' id') {v v' : FieldValue}
    (hv : v.Alike R v') : unfoldValue unfold v = unfoldValue unfold' v' := by
  cases hv with
  | node hid => exact hunfold _ _ hid
  | _ => rfl

/-- Related nodes unfold to the same, down to any depth. -/
theorem unfold_eq (h : g.Alike R L g') (depth : Nat) :
    ∀ id id', R id id' → g.unfold depth id = g'.unfold depth id' := by
  induction depth with
  | zero => exact fun _ _ _ => rfl
  | succ depth ih =>
      intro id id' hid
      obtain ⟨node, node', hnode, hnode', halike⟩ := h.nodes hid
      rw [unfold, unfold, hnode, hnode']
      cases halike with
      | tuple hoperands =>
          exact congrArg Unfolding.tuple
            (map_eq_map_of_forall₂ hoperands fun o o' ho => h.unfoldOperand_eq ih ho)
      | debug kind distinct hfields =>
          refine congrArg (Unfolding.debug kind distinct) (map_eq_map_of_forall₂ hfields ?_)
          intro field field' hfield
          rw [hfield.1, unfoldValue_eq ih hfield.2]

/-! ### Growth -/

theorem empty : (∅ : Graph).Alike (fun _ _ => False) (fun _ _ => False) ∅ where
  indexed := indexed_empty
  indexed' := indexed_empty
  nodes := False.elim
  lists := False.elim
  injective := False.elim

/-- What is related stays so while both graphs grow and the related lists stay as they
are. -/
theorem of_grows (halike : g.Alike R L g') (hg : g.Grows h) (hg' : g'.Grows h')
    (hlists : ∀ {list list'}, L list list' → h.list? list = g.list? list)
    (hlists' : ∀ {list list'}, L list list' → h'.list? list' = g'.list? list') :
    h.Alike R L h' where
  indexed := hg.indexed halike.indexed
  indexed' := hg'.indexed halike.indexed'
  nodes := by
    intro id id' hid
    obtain ⟨node, node', hnode, hnode', hnodes⟩ := halike.nodes hid
    exact ⟨node, node', hg.nodes.node? hnode, hg'.nodes.node? hnode', hnodes⟩
  lists := by
    intro list list' hlist
    rw [hlists hlist, hlists' hlist]
    exact halike.lists hlist
  injective := halike.injective

/-- Nodes that are alike are related once both are added. -/
theorem add (halike : g.Alike R L g') (hnode : node.Alike R L node') :
    ∃ R', (∀ id id', R id id' → R' id id') ∧ R' (g.add node).1 (g'.add node').1 ∧
      (g.add node).2.Alike R' L (g'.add node').2 := by
  have hadded := halike.of_grows (g.grows_add node) (g'.grows_add node')
    (fun _ => by rw [list?, lists_add, list?]) (fun _ => by rw [list?, lists_add, list?])
  have hfound := halike.indexed.node?_add node
  have hfound' := halike.indexed'.node?_add node'
  generalize g.add node = added at hadded hfound ⊢
  generalize g'.add node' = added' at hadded hfound' ⊢
  let R' (id id' : NodeId) : Prop := R id id' ∨ (id = added.1 ∧ id' = added'.1)
  have hmono (id id' : NodeId) (hid : R id id') : R' id id' := .inl hid
  refine ⟨R', hmono, .inr ⟨rfl, rfl⟩, hadded.indexed, hadded.indexed', ?_, ?_, hadded.injective⟩
  · rintro id id' (hid | ⟨rfl, rfl⟩)
    · obtain ⟨old, old', hold, hold', hsame⟩ := hadded.nodes hid
      exact ⟨old, old', hold, hold', hsame.mono hmono fun _ _ hlist => hlist⟩
    · exact ⟨node, node', hfound, hfound', hnode.mono hmono fun _ _ hlist => hlist⟩
  · intro list list' hlist
    obtain ⟨ids, ids', hids, hids', hnodes⟩ := hadded.lists hlist
    exact ⟨ids, ids', hids, hids', hnodes.imp hmono⟩

theorem newList (halike : g.Alike R L g') :
    g.newList.2.Alike R
      (fun list list' => L list list' ∨ (list = g.newList.1 ∧ list' = g'.newList.1))
      g'.newList.2 := by
  have hold {list list' : ListId} (hlist : L list list') :
      list.index ≠ g.lists.size ∧ list'.index ≠ g'.lists.size := by
    obtain ⟨ids, ids', hids, hids', -⟩ := halike.lists hlist
    exact ⟨Nat.ne_of_lt (lt_lists_size_of_list? hids), Nat.ne_of_lt (lt_lists_size_of_list? hids')⟩
  have hne {list list' : ListId} (hlist : L list list') :
      list ≠ g.newList.1 ∧ list' ≠ g'.newList.1 :=
    ⟨fun heq => (hold hlist).1 (congrArg ListId.index heq),
      fun heq => (hold hlist).2 (congrArg ListId.index heq)⟩
  refine ⟨halike.indexed.newList, halike.indexed'.newList, ?_, ?_, ?_⟩
  · intro id id' hid
    obtain ⟨node, node', hnode, hnode', hnodes⟩ := halike.nodes hid
    exact ⟨node, node', hnode, hnode', hnodes.mono (fun _ _ h => h) fun _ _ h => .inl h⟩
  · rintro list list' (hlist | ⟨rfl, rfl⟩)
    · rw [list?_newList, list?_newList, if_neg (hold hlist).1, if_neg (hold hlist).2]
      exact halike.lists hlist
    · exact ⟨#[], #[], (list?_newList _ _).trans (if_pos rfl),
        (list?_newList _ _).trans (if_pos rfl), .nil⟩
  · rintro list list' other other' (hlist | ⟨rfl, rfl⟩) (hother | ⟨rfl, rfl⟩)
    · exact halike.injective hlist hother
    · exact iff_of_false (hne hlist).1 (hne hlist).2
    · exact iff_of_false (hne hother).1.symm (hne hother).2.symm
    · exact iff_of_true rfl rfl

theorem pushToList (halike : g.Alike R L g') (hlist : L list list') (hid : R id id') :
    (g.pushToList list id).Alike R L (g'.pushToList list' id') := by
  refine ⟨halike.indexed.pushToList list id, halike.indexed'.pushToList list' id', halike.nodes, ?_,
    halike.injective⟩
  intro other other' hother
  obtain ⟨ids, ids', hids, hids', hnodes⟩ := halike.lists hother
  rw [list?_pushToList, list?_pushToList, hids, hids']
  by_cases hsame : other = list
  · rw [if_pos hsame, if_pos ((halike.injective hother hlist).mp hsame)]
    refine ⟨_, _, rfl, rfl, ?_⟩
    rw [Array.toList_push, Array.toList_push]
    exact List.rel_append hnodes (.cons hid .nil)
  · rw [if_neg hsame, if_neg fun hsame' => hsame ((halike.injective hother hlist).mpr hsame')]
    exact ⟨ids, ids', rfl, rfl, hnodes⟩

end Alike

end Graph

end DebugMetadata

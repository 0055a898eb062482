import DebugMetadata.Assembly.Node
import DebugMetadata.Proofs.Graph.References
import DebugMetadata.Proofs.Permanence.Arenas

/-!
# What a module prints of a node

A list has its number after all nodes, so the number rises by one with each node that is
added.  Nothing else changes in what a module prints of a node that it has.
-/

namespace DebugMetadata

namespace Assembly

/-- How a module prints an operand if the number of every list is higher by as much. -/
def raisedOperand? (added : Nat) (m : Module) : Operand → Option String
  | .list id => some (numberRef (listNumber m.graph id + added))
  | operand => operand? m operand

/-- How a module prints a node if the number of every list is higher by as much. -/
def raisedNode? (added : Nat) (m : Module) : Node → Option String
  | .tuple operands => do
    let items ← operands.mapM (raisedOperand? added m)
    return tuple items
  | .debug content distinct => some (debugNode content distinct)

variable {m m' : Module} {node : Node} {body : String}

/-- What a module prints of a node stands in the line of its number. -/
theorem getElem?_definitions? {lines : List String} (h : definitions? m = some lines)
    {id : NodeId} (hnode : m.graph.node? id = some node) :
    ∃ body, node? m node = some body ∧ lines[id.index]? = some (definition id.index body) := by
  obtain ⟨bodies, hbodies, h⟩ := Option.bind_eq_some_iff.mp h
  cases h
  rw [Graph.node?, ← Array.getElem?_toList] at hnode
  obtain ⟨body, hbody, hread⟩ := getElem?_of_mapM hbodies hnode
  obtain ⟨hlt, -⟩ := List.getElem?_eq_some_iff.mp hbody
  refine ⟨body, hread, ?_⟩
  rw [List.getElem?_mapIdx, List.getElem?_append_left hlt, hbody, Option.map_some]

theorem operand?_eq_raised (hgrows : m.Grows m') {operand : Operand} {item : String}
    (hitem : operand? m operand = some item) :
    operand? m' operand = raisedOperand? (m'.graph.size - m.graph.size) m operand := by
  cases operand with
  | function id =>
      obtain ⟨f, hf, -⟩ := Option.map_eq_some_iff.mp hitem
      obtain ⟨f', hf', hsame⟩ := hgrows.function? hf
      change (m'.function? id).map _ = (m.function? id).map _
      rw [hf, hf', Option.map_some, Option.map_some, hsame.name, hsame.signature]
  | list id =>
      have hnumber : m'.graph.size + id.index =
          m.graph.size + id.index + (m'.graph.size - m.graph.size) := by
        have hle := hgrows.nodes.length_le
        rw [Array.length_toList, Array.length_toList] at hle
        unfold Graph.size
        omega
      exact congrArg (fun number => some (numberRef number)) hnumber
  | _ => rfl

theorem node?_eq_raised (hgrows : m.Grows m') (hbody : node? m node = some body) :
    node? m' node = raisedNode? (m'.graph.size - m.graph.size) m node := by
  cases node with
  | tuple operands =>
      obtain ⟨items, hitems, -⟩ := Option.bind_eq_some_iff.mp hbody
      have hsame : operands.mapM (operand? m') =
          operands.mapM (raisedOperand? (m'.graph.size - m.graph.size) m) := by
        apply mapM_congr
        intro operand hoperand
        obtain ⟨n, hn⟩ := List.mem_iff_getElem?.mp hoperand
        obtain ⟨item, -, hitem⟩ := getElem?_of_mapM hitems hn
        exact operand?_eq_raised hgrows hitem
      exact congrArg (Option.bind · fun items => some (tuple items)) hsame
  | debug content distinct => rfl

/-- A node without a list does not see the numbers of the lists. -/
theorem raisedNode?_of_no_list (added : Nat) (m : Module)
    (hlists : ∀ list, .list list ∉ node.references) : raisedNode? added m node = node? m node := by
  cases node with
  | tuple operands =>
      have hsame : operands.mapM (raisedOperand? added m) = operands.mapM (operand? m) := by
        apply mapM_congr
        intro operand hoperand
        cases operand with
        | list list => exact absurd (Node.mem_references_tuple hoperand rfl) (hlists list)
        | _ => rfl
      exact congrArg (Option.bind · fun items => some (tuple items)) hsame
  | debug content distinct => rfl

end Assembly

namespace Session

open Assembly

/-- Whatever is done to a session, its module keeps what every handle stands for: the nodes,
the content of every list and what was ever said of a function, a block or an instruction.
If it could be printed before and can be printed after, each node is printed as before with
the number of every list raised by the number of nodes that were added in between, and so
just as before if it holds no list. -/
theorem handles_keep_their_meaning (s : Session) (later : List Command) :
    let m := s.module
    let m' := (s.run later).2.module
    m.Grows m' ∧
    (m.functions.size ≤ m'.functions.size ∧ m.blocks.size ≤ m'.blocks.size ∧
      m.instructions.size ≤ m'.instructions.size ∧ m.graph.lists.size ≤ m'.graph.lists.size) ∧
    m.graph.named.keys <+: m'.graph.named.keys ∧
    ∀ lines lines', definitions? m = some lines → definitions? m' = some lines' →
      ∀ id node, m.graph.node? id = some node → ∃ body body',
        lines[id.index]? = some (definition id.index body) ∧
        lines'[id.index]? = some (definition id.index body') ∧
        node? m node = some body ∧
        raisedNode? (m'.graph.size - m.graph.size) m node = some body' ∧
        ((∀ list, .list list ∉ node.references) → body' = body) := by
  intro m m'
  have hgrows : m.Grows m' := (s.steps_run later).grows
  refine ⟨hgrows, ⟨hgrows.functions_size_le, hgrows.blocks_size_le, hgrows.instructions_size_le,
    hgrows.lists.size_le⟩, hgrows.named_keys, ?_⟩
  intro lines lines' hlines hlines' id node hnode
  obtain ⟨body, hbody, hline⟩ := getElem?_definitions? hlines hnode
  obtain ⟨body', hbody', hline'⟩ := getElem?_definitions? hlines' (hgrows.nodes.node? hnode)
  rw [node?_eq_raised hgrows hbody] at hbody'
  refine ⟨body, body', hline, hline', hbody, hbody', ?_⟩
  intro hlists
  rw [raisedNode?_of_no_list _ m hlists, hbody] at hbody'
  exact (Option.some.inj hbody').symm

/-- A list and a unit that refers to it. -/
def listedCommands : List Command :=
  [.edit .newList, .edit (.add (.tuple [.i32 17, .list ⟨0⟩]))]

/-- A distinct node, which is pushed to the list. -/
def laterCommands : List Command :=
  [.edit (.add (.debug ⟨.file, []⟩ true)), .edit (.pushToList ⟨0⟩ ⟨1⟩)]

/-- The session of a list and a unit that refers to it. -/
private def listed : Session :=
  { Session.start [] "m" with
    module :=
      { name := "m"
        graph :=
          { nodes := #[.tuple [.i32 17, .list ⟨0⟩]]
            sharedTuples :=
              (∅ : Std.HashMap (List Operand) NodeId).insert [.i32 17, .list ⟨0⟩] ⟨0⟩
            lists := #[#[]] } } }

/-- The list is number one first and number two once the graph has another node.  What is
printed of the unit changes in this number alone. -/
theorem handles_keep_their_meaning_of_listed :
    ∃ s lines lines' body body', ((Session.start [] "m").run listedCommands).2 = s ∧
      definitions? s.module = some lines ∧
      definitions? (s.run laterCommands).2.module = some lines' ∧
      lines[0]? = some (definition 0 body) ∧ body = "!\x7bi32 17, !1\x7d" ∧
      lines'[0]? = some (definition 0 body') ∧ body' = "!\x7bi32 17, !2\x7d" := by
  -- No kernel computation looks a node up in the index, so the unit is added by its equation.
  have hadd : ((Session.start [] "m").run [.edit .newList]).2.perform
      (.edit (.add (.tuple [.i32 17, .list ⟨0⟩]))) = .ok (.node ⟨0⟩, listed) := by
    have hgraph : ((Session.start [] "m").run [.edit .newList]).2.module.graph.add
        (.tuple [.i32 17, .list ⟨0⟩]) = (⟨0⟩, listed.module.graph) :=
      Graph.add_of_not_found rfl Std.HashMap.getElem?_empty
    simp only [perform, Graph.perform, hgraph]
    rfl
  have hlisted : ((Session.start [] "m").run listedCommands).2 = listed := run_cons hadd []
  have hlines : definitions? listed.module =
      some ["!0 = !\x7bi32 17, !1\x7d", "!1 = !\x7b\x7d"] := by decide +kernel
  have hlines' : definitions? (listed.run laterCommands).2.module =
      some ["!0 = !\x7bi32 17, !2\x7d", "!1 = distinct !DIFile()", "!2 = !\x7b!1\x7d"] := by
    decide +kernel
  obtain ⟨-, -, -, hprinted⟩ := handles_keep_their_meaning listed laterCommands
  obtain ⟨body, body', hline, hline', hbody, hbody', -⟩ :=
    hprinted _ _ hlines hlines' ⟨0⟩ (.tuple [.i32 17, .list ⟨0⟩]) rfl
  refine ⟨listed, _, _, body, body', hlisted, hlines, hlines', hline, ?_, hline', ?_⟩
  · have hread : node? listed.module (.tuple [.i32 17, .list ⟨0⟩]) =
        some "!\x7bi32 17, !1\x7d" := by decide +kernel
    exact Option.some.inj (hbody.symm.trans hread)
  · have hread : raisedNode? ((listed.run laterCommands).2.module.graph.size -
        listed.module.graph.size) listed.module (.tuple [.i32 17, .list ⟨0⟩]) =
        some "!\x7bi32 17, !2\x7d" := by decide +kernel
    exact Option.some.inj (hbody'.symm.trans hread)

end Session

end DebugMetadata

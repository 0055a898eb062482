import DebugMetadata.Assembly.Module
import DebugMetadata.Proofs.Graph.References
import DebugMetadata.Proofs.Permanence.Printing
import DebugMetadata.Proofs.Text.Lines
import DebugMetadata.Proofs.Text.Separation

/-!
# Numbers of metadata

A printed module ends with a definition for every number, each on a line of its own, and
whatever refers to a node or a list shows the number under which it is defined.  The
numbers come from two arenas, and the lists have theirs after all nodes.  Only a text that
is written as it is could break a line, and a string never is.
-/

namespace DebugMetadata

open Text (IsLine isLine_append_iff isLine_intercalate)

/-- The number of what a reference refers to. -/
def Graph.number? (g : Graph) : Reference → Option Nat
  | .node id => some id.index
  | .list id => some (g.size + id.index)
  | _ => none

def FieldValue.token? : FieldValue → Option String
  | .token name => some name
  | _ => none

/-- The texts that are written as they are in the definition of a node: the names of
functions and of fields, and the tokens. -/
def Module.rawTexts (m : Module) : Node → List String
  | .tuple operands => operands.filterMap fun
    | .function id => (m.function? id).map (·.name)
    | _ => none
  | .debug content _ => content.fields.flatMap fun field => field.1 :: field.2.token?.toList

namespace Assembly

/-! ## What a text shows -/

/-- The text is the number of what is referred to, if that has one. -/
def Shows (g : Graph) (ref : Option Reference) (text : String) : Prop :=
  ∀ number, ref.bind g.number? = some number → text = "!" ++ number.repr

/-- A node's text has its operands or fields in order, each with the number of what it
refers to. -/
def IsNodeText (g : Graph) (body : String) : Node → Prop
  | .tuple operands => ∃ items, body = "!\x7b" ++ ", ".intercalate items ++ "\x7d" ∧
      List.Forall₂ (fun operand item => Shows g operand.reference? item) operands items
  | .debug content distinct => ∃ items, body = (if distinct then "distinct " else "") ++
        "!" ++ content.kind.name ++ "(" ++ ", ".intercalate items ++ ")" ∧
      List.Forall₂ (fun field item => ∃ value, item = field.1 ++ ": " ++ value ∧
        Shows g field.2.reference? value) content.fields items

/-- The handles in braces, each as its number. -/
def tupleText (ids : Array NodeId) : String :=
  "!\x7b" ++ ", ".intercalate (ids.toList.map fun id => "!" ++ id.index.repr) ++ "\x7d"

/-- The attachments one after another, each as its key and its number. -/
def attachmentsText (separator : String) (entries : List (String × NodeId)) : String :=
  String.join
    (entries.map fun entry => separator ++ "!" ++ entry.1 ++ " !" ++ entry.2.index.repr)

/-- The line of an instruction ends with its location under `dbg` and its attachments. -/
def IsInstructionLine (m : Module) (id : InstrId) (line : String) : Prop :=
  ∃ i operation, m.instruction? id = some i ∧ line = operation ++ attachmentsText ", "
    ((i.location.map ("dbg", ·)).toList ++ i.attachments.entries)

/-- A block's lines are its label and then its instructions. -/
def IsBlockText (m : Module) (b : Block) (lines : List String) : Prop :=
  ∃ instructions, lines = (b.label ++ ":") :: instructions ∧
    List.Forall₂ (IsInstructionLine m) b.instrs.toList instructions

/-- A function's lines are one that ends with its attachments and, unless that is all, those
of its blocks in braces. -/
def IsFunctionText (m : Module) (f : Function) (lines : List String) : Prop :=
  ∃ start, if f.isDeclaration then lines = [start ++ attachmentsText " " f.attachments.entries]
    else ∃ blocks bodies, f.blocks.toList.mapM m.block? = some blocks ∧
      lines = [start ++ attachmentsText " " f.attachments.entries ++ " \x7b"] ++
        [""].intercalate bodies ++ ["\x7d"] ∧
      List.Forall₂ (IsBlockText m) blocks bodies

/-- The text is made of the lines of the functions, the named lists and the definitions. -/
structure IsListing (m : Module) (text : String) (functions : List (List String))
    (definitions : List String) : Prop where
  text_eq : text = String.join ((moduleHeader m ++ functions.flatMap setOff ++
    setOff (m.graph.named.entries.map fun entry => "!" ++ entry.1 ++ " = " ++ tupleText entry.2) ++
    setOff definitions).map (· ++ "\n"))
  functions : List.Forall₂ (IsFunctionText m) m.functions.toList functions
  length : definitions.length = m.graph.nodes.size + m.graph.lists.size
  isLine : ∀ line ∈ definitions, IsLine line
  /-- The definition of a number is the line in its place and no other one. -/
  number : ∀ n line, definitions[n]? = some line →
    ∀ number : Nat, ("!" ++ number.repr ++ " = ").toList <+: line.toList ↔ number = n
  node : ∀ id node, m.graph.node? id = some node →
    ∃ body, definitions[id.index]? = some ("!" ++ id.index.repr ++ " = " ++ body) ∧
      IsNodeText m.graph body node
  /-- A list is defined by what it holds, under a number that no node has. -/
  list : ∀ id ids, m.graph.list? id = some ids →
    m.graph.node? ⟨m.graph.nodes.size + id.index⟩ = none ∧
    definitions[m.graph.nodes.size + id.index]? =
      some ("!" ++ (m.graph.nodes.size + id.index).repr ++ " = " ++ tupleText ids)

variable {m : Module}

/-! ## Lines -/

theorem isLine_operand? {operand : Operand} {item : String} (hitem : operand? m operand = some item)
    (hname : ∀ id f, operand = .function id → m.function? id = some f → IsLine f.name) :
    IsLine item := by
  cases operand with
  | function id =>
      obtain ⟨f, hf, rfl⟩ := Option.map_eq_some_iff.mp hitem
      rw [isLine_append_iff, isLine_append_iff]
      exact ⟨⟨f.signature.isLine_text, by decide⟩, hname id f rfl hf⟩
  | int bits value =>
      cases hitem
      unfold integer boolWord
      rw [isLine_append_iff, isLine_append_iff, isLine_append_iff]
      refine ⟨⟨⟨by decide, Text.isLine_repr bits⟩, by decide⟩, ?_⟩
      split
      · split <;> decide
      · exact Text.isLine_decimal value
  | str text =>
      cases hitem
      exact isLine_append_iff.mpr ⟨by decide, Text.Quoted.isLine_literal text⟩
  | null =>
      cases hitem
      decide
  | node id =>
      cases hitem
      exact isLine_append_iff.mpr ⟨by decide, Text.isLine_repr id.index⟩
  | list id =>
      cases hitem
      exact isLine_append_iff.mpr ⟨by decide, Text.isLine_repr (listNumber m.graph id)⟩

theorem isLine_fieldValue {value : FieldValue}
    (htoken : ∀ name, value = .token name → IsLine name) : IsLine (fieldValue value) := by
  cases value with
  | int value => exact Text.isLine_decimal value
  | bool value => cases value <;> decide
  | str text => exact Text.Quoted.isLine_literal text
  | token name => exact htoken name rfl
  | node id => exact isLine_append_iff.mpr ⟨by decide, Text.isLine_repr id.index⟩

/-- A node is written on one line if each text is that is written as it is. -/
theorem isLine_node? {node : Node} {body : String} (hbody : node? m node = some body)
    (hraw : ∀ raw ∈ m.rawTexts node, IsLine raw) : IsLine body := by
  cases node with
  | tuple operands =>
      obtain ⟨items, hitems, hbody⟩ := Option.bind_eq_some_iff.mp hbody
      cases hbody
      have hlines : IsLine (commaSeparated items) := by
        apply isLine_intercalate (by decide)
        intro item hitem
        obtain ⟨operand, hoperand, hread⟩ := exists_of_mem_mapM hitems hitem
        apply isLine_operand? hread
        rintro id f rfl hf
        exact hraw _ (List.mem_filterMap.mpr ⟨_, hoperand, congrArg (Option.map (·.name)) hf⟩)
      rw [tuple, isLine_append_iff, isLine_append_iff]
      exact ⟨⟨by decide, hlines⟩, by decide⟩
  | debug content distinct =>
      cases hbody
      have hlines : IsLine (commaSeparated
          (content.fields.map fun field => field.1 ++ ": " ++ fieldValue field.2)) := by
        apply isLine_intercalate (by decide)
        intro item hitem
        obtain ⟨field, hfield, rfl⟩ := List.mem_map.mp hitem
        have hname {raw : String} (h : raw ∈ field.1 :: field.2.token?.toList) : IsLine raw :=
          hraw raw (List.mem_flatMap.mpr ⟨field, hfield, h⟩)
        rw [isLine_append_iff, isLine_append_iff]
        refine ⟨⟨hname List.mem_cons_self, by decide⟩, isLine_fieldValue ?_⟩
        intro name htoken
        apply hname
        rw [htoken]
        exact List.mem_cons_of_mem _ List.mem_cons_self
      have hkind : IsLine content.kind.name := by
        cases content.kind <;> decide
      have hdistinct : IsLine (if distinct then "distinct " else "") := by
        cases distinct <;> decide
      unfold debugNode
      simp only [isLine_append_iff]
      exact ⟨⟨⟨⟨⟨hdistinct, by decide⟩, hkind⟩, by decide⟩, hlines⟩, by decide⟩

/-! ## Definitions -/

theorem prefix_definition_iff {number n : Nat} {body : String} :
    ("!" ++ number.repr ++ " = ").toList <+: (definition n body).toList ↔ number = n := by
  have hstart (n : Nat) (s : List Char) : ("!" ++ n.repr ++ " = ").toList ++ s =
      '!' :: (n.repr.toList ++ ' ' :: '=' :: ' ' :: s) := by
    rw [String.toList_append, String.toList_append, List.append_assoc, List.append_assoc]
    rfl
  have hdefinition : (definition n body).toList = ("!" ++ n.repr ++ " = ").toList ++ body.toList :=
    String.toList_append
  rw [hdefinition]
  constructor
  · rintro ⟨rest, hrest⟩
    rw [hstart, hstart] at hrest
    exact (Text.repr_append_inj (Text.leaves_cons rfl) (Text.leaves_cons rfl)
      (List.cons.inj hrest).2).1
  · rintro rfl
    exact List.prefix_append _ _

theorem shows_operand? {operand : Operand} {item : String}
    (hitem : operand? m operand = some item) : Shows m.graph operand.reference? item := by
  intro number hnumber
  cases operand with
  | node id =>
      cases hitem
      cases hnumber
      rfl
  | list id =>
      cases hitem
      cases hnumber
      rfl
  | _ => cases hnumber

theorem shows_fieldValue (g : Graph) (value : FieldValue) :
    Shows g value.reference? (fieldValue value) := by
  intro number hnumber
  cases value with
  | node id =>
      cases hnumber
      rfl
  | _ => cases hnumber

theorem isNodeText_node? {node : Node} {body : String} (hbody : node? m node = some body) :
    IsNodeText m.graph body node := by
  cases node with
  | tuple operands =>
      obtain ⟨items, hitems, hbody⟩ := Option.bind_eq_some_iff.mp hbody
      cases hbody
      exact ⟨items, rfl, (mapM_eq_some_iff.mp hitems).imp fun _ _ => shows_operand?⟩
  | debug content distinct =>
      cases hbody
      refine ⟨_, rfl, ?_⟩
      rw [List.forall₂_map_right_iff, List.forall₂_same]
      exact fun field _ => ⟨fieldValue field.2, rfl, shows_fieldValue m.graph field.2⟩

/-- What stands in the place of a definition is its text under the number of the place. -/
theorem exists_definition {lines : List String} (h : definitions? m = some lines) {n : Nat}
    {line : String} (hline : lines[n]? = some line) : ∃ body, line = definition n body := by
  obtain ⟨bodies, -, h⟩ := Option.bind_eq_some_iff.mp h
  cases h
  rw [List.getElem?_mapIdx] at hline
  obtain ⟨body, -, rfl⟩ := Option.map_eq_some_iff.mp hline
  exact ⟨body, rfl⟩

theorem length_definitions? {lines : List String} (h : definitions? m = some lines) :
    lines.length = m.graph.nodes.size + m.graph.lists.size := by
  obtain ⟨bodies, hbodies, h⟩ := Option.bind_eq_some_iff.mp h
  cases h
  have hnodes := (mapM_eq_some_iff.mp hbodies).length_eq
  have hlists : m.graph.lists.toList.length = m.graph.lists.size := Array.length_toList
  rw [List.length_mapIdx, List.length_append, List.length_map, ← hnodes, hlists,
    Array.length_toList]

theorem isLine_nodeTuple (ids : Array NodeId) : IsLine (nodeTuple ids) := by
  have hlines : IsLine (commaSeparated (ids.toList.map nodeRef)) := by
    apply isLine_intercalate (by decide)
    intro item hitem
    obtain ⟨id, -, rfl⟩ := List.mem_map.mp hitem
    exact isLine_append_iff.mpr ⟨by decide, Text.isLine_repr id.index⟩
  rw [nodeTuple, tuple, isLine_append_iff, isLine_append_iff]
  exact ⟨⟨by decide, hlines⟩, by decide⟩

theorem isLine_definitions? {lines : List String} (h : definitions? m = some lines)
    (hraw : ∀ node ∈ m.graph.nodes, ∀ raw ∈ m.rawTexts node, IsLine raw) {line : String}
    (hline : line ∈ lines) : IsLine line := by
  obtain ⟨bodies, hbodies, h⟩ := Option.bind_eq_some_iff.mp h
  cases h
  obtain ⟨n, hn, rfl⟩ := List.mem_mapIdx.mp hline
  have hbody : ∀ body ∈ bodies ++ m.graph.lists.toList.map nodeTuple, IsLine body := by
    intro body hbody
    rcases List.mem_append.mp hbody with hbody | hbody
    · obtain ⟨node, hnode, hread⟩ := exists_of_mem_mapM hbodies hbody
      exact isLine_node? hread (hraw node (Array.mem_toList_iff.mp hnode))
    · obtain ⟨ids, -, rfl⟩ := List.mem_map.mp hbody
      exact isLine_nodeTuple ids
  unfold definition numberRef
  rw [isLine_append_iff, isLine_append_iff, isLine_append_iff]
  exact ⟨⟨⟨by decide, Text.isLine_repr n⟩, by decide⟩, hbody _ (List.getElem_mem hn)⟩

/-- The lists are defined after the nodes. -/
theorem getElem?_definitions?_list {lines : List String} (h : definitions? m = some lines)
    {id : ListId} {ids : Array NodeId} (hids : m.graph.list? id = some ids) :
    lines[m.graph.nodes.size + id.index]? =
      some (definition (m.graph.nodes.size + id.index) (nodeTuple ids)) := by
  obtain ⟨bodies, hbodies, h⟩ := Option.bind_eq_some_iff.mp h
  cases h
  have hnodes := (mapM_eq_some_iff.mp hbodies).length_eq
  rw [Array.length_toList] at hnodes
  rw [Graph.list?, ← Array.getElem?_toList] at hids
  rw [List.getElem?_mapIdx, hnodes, List.getElem?_append_right (Nat.le_add_right _ _),
    Nat.add_sub_cancel_left, List.getElem?_map, hids]
  rfl

/-! ## Functions -/

theorem attachmentsText_eq (separator : String) (entries : List (String × NodeId)) :
    attachmentsText separator entries =
      String.join (entries.map fun entry => separator ++ attachment entry) := by
  have hspace : " " ++ "!" = " !" := by decide
  unfold attachmentsText attachment nodeRef numberRef
  congr 2
  ext entry
  rw [← hspace]
  simp only [String.append_assoc]

theorem isInstructionLine_instruction? {n : Numbering} {id : InstrId} {line : String}
    (hline : instruction? m n id = some line) : IsInstructionLine m id line := by
  obtain ⟨i, hi, hline⟩ := Option.bind_eq_some_iff.mp hline
  obtain ⟨operation, -, hline⟩ := Option.bind_eq_some_iff.mp hline
  cases hline
  exact ⟨i, "  " ++ operation, hi, by rw [attachmentsText_eq]; rfl⟩

theorem isBlockText_block? {n : Numbering} {b : Block} {lines : List String}
    (hlines : block? m n b = some lines) : IsBlockText m b lines := by
  obtain ⟨instructions, hinstructions, hlines⟩ := Option.bind_eq_some_iff.mp hlines
  cases hlines
  exact ⟨instructions, rfl,
    (mapM_eq_some_iff.mp hinstructions).imp fun _ _ => isInstructionLine_instruction?⟩

theorem exists_header (f : Function) :
    ∃ start, header f = start ++ attachmentsText " " f.attachments.entries := by
  rw [attachmentsText_eq]
  exact ⟨_, rfl⟩

theorem isFunctionText_function? {f : Function} {lines : List String}
    (hlines : function? m f = some lines) : IsFunctionText m f lines := by
  obtain ⟨start, hstart⟩ := exists_header f
  unfold function? at hlines
  rw [hstart] at hlines
  refine ⟨start, ?_⟩
  by_cases hdeclaration : f.isDeclaration = true
  · rw [if_pos hdeclaration] at hlines ⊢
    exact (Option.some.inj hlines).symm
  · rw [if_neg hdeclaration] at hlines ⊢
    obtain ⟨blocks, hblocks, hlines⟩ := Option.bind_eq_some_iff.mp hlines
    obtain ⟨bodies, hbodies, hlines⟩ := Option.bind_eq_some_iff.mp hlines
    cases hlines
    exact ⟨blocks, bodies, hblocks, rfl,
      (mapM_eq_some_iff.mp hbodies).imp fun _ _ => isBlockText_block?⟩

end Assembly

open Assembly

/-- A module that can be printed, and in which no text that is written as it is breaks a
line, is printed with one definition for each number and nothing after them.  The nodes are
defined in the order of the graph and then the lists, each by what it holds, and whatever
refers to a node or a list shows its number. -/
theorem Module.exists_isListing {m : Module} {text : String} (htext : m.assembly? = some text)
    (hraw : ∀ node ∈ m.graph.nodes, ∀ raw ∈ m.rawTexts node, IsLine raw) :
    ∃ functions definitions, IsListing m text functions definitions := by
  obtain ⟨lines, hlines, rfl⟩ := Option.map_eq_some_iff.mp htext
  obtain ⟨paragraphs, hparagraphs, hlines⟩ := Option.bind_eq_some_iff.mp hlines
  cases hlines
  obtain ⟨functions, hfunctions, hparagraphs⟩ := Option.bind_eq_some_iff.mp hparagraphs
  obtain ⟨definitions, hdefinitions, hparagraphs⟩ := Option.bind_eq_some_iff.mp hparagraphs
  cases hparagraphs
  refine ⟨functions, definitions, ?_⟩
  exact {
    text_eq := by
      rw [List.flatMap_append, List.flatMap_cons, List.flatMap_singleton, ← List.append_assoc,
        ← List.append_assoc]
      rfl
    functions := (mapM_eq_some_iff.mp hfunctions).imp fun _ _ => isFunctionText_function?
    length := length_definitions? hdefinitions
    isLine := fun line hline => isLine_definitions? hdefinitions hraw hline
    number := by
      intro n line hline number
      obtain ⟨body, rfl⟩ := exists_definition hdefinitions hline
      exact prefix_definition_iff
    node := by
      intro id node hnode
      obtain ⟨body, hbody, hline⟩ := getElem?_definitions? hdefinitions hnode
      exact ⟨body, hline, isNodeText_node? hbody⟩
    list := by
      intro id ids hids
      exact ⟨Array.getElem?_eq_none (Nat.le_add_right _ _),
        getElem?_definitions?_list hdefinitions hids⟩ }

/-- A list of two nodes, one of them of a string with a newline, and a unit that refers to
the list and to a function.  The function refers to two of the nodes and its instruction to
the others. -/
def numbered : Module where
  name := "m"
  functions := #[{
    name := "f"
    signature := .unit
    blocks := #[⟨0⟩]
    attachments := ⟨[("dbg", ⟨2⟩), ("first", ⟨1⟩)]⟩ }]
  blocks := #[{ label := "entry", function := ⟨0⟩, instrs := #[⟨0⟩] }]
  instructions := #[{
    operation := .ret none
    block := ⟨0⟩
    location := some ⟨3⟩
    attachments := ⟨[("unit", ⟨0⟩)]⟩ }]
  graph := {
    nodes := #[.tuple [.i32 17, .function ⟨0⟩, .list ⟨0⟩], .tuple [.str "a\nb"],
      .debug ⟨.subprogram, [("name", .str "f")]⟩ true,
      .debug ⟨.location, [("line", .int 3), ("scope", .node ⟨2⟩)]⟩ false]
    lists := #[#[⟨1⟩, ⟨2⟩]]
    named := ⟨[("units", #[⟨0⟩])], (∅ : Std.HashMap String Nat).insert "units" 0⟩ }

theorem exists_isListing_of_numbered : ∃ text functions definitions,
    numbered.assembly? = some text ∧
    (∀ node ∈ numbered.graph.nodes, ∀ raw ∈ numbered.rawTexts node, IsLine raw) ∧
    IsListing numbered text functions definitions := by
  have hprinted : numbered.assembly?.isSome := by decide +kernel
  have hraw : ∀ node ∈ numbered.graph.nodes, ∀ raw ∈ numbered.rawTexts node, IsLine raw := by
    decide +kernel
  obtain ⟨text, htext⟩ := Option.isSome_iff_exists.mp hprinted
  obtain ⟨functions, definitions, hlisting⟩ := Module.exists_isListing htext hraw
  exact ⟨text, functions, definitions, htext, hraw, hlisting⟩

example : definitions? numbered = some [
    "!0 = !\x7bi32 17, void ()* @f, !4\x7d", "!1 = !\x7b!\"a\\0Ab\"\x7d",
    "!2 = distinct !DISubprogram(name: \"f\")", "!3 = !DILocation(line: 3, scope: !2)",
    "!4 = !\x7b!1, !2\x7d"] := by decide +kernel

end DebugMetadata

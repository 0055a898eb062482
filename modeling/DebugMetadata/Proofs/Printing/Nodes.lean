import DebugMetadata.Proofs.Module.Growth
import DebugMetadata.Proofs.Printing.Failure
import DebugMetadata.Proofs.Text.Separation

/-!
# Nodes told by their texts

The text of a node determines the node.  What is written in an operand or a field takes one
of a few forms, and the first characters tell which.  Within a form the text is told apart
by its own characters: a literal by its quotes, a number by its digits, and a function by its
name, which no other function of the module has.  A reference to a node and one to a list
have the same form, and only their numbers keep them apart.
-/

namespace DebugMetadata

open Text (decimal Leaves Delimited ToldApart leaves_cons delimiters isNumeral)

/-! ## Nodes that can be told -/

/-- A bit has one of two values, a node is one of the module's and a function exists and has a
plain name. -/
def Operand.IsProper (m : Module) : Operand → Prop
  | .int bits value => bits = 1 → value = 0 ∨ value = 1
  | .node id => id.index < m.graph.size
  | .function id => ∃ f ∈ m.function? id, f.name.toList.all Text.isSymbolChar = true
  | _ => True

/-- A token is a word and not a truth value. -/
def FieldValue.IsProper : FieldValue → Prop
  | .token name => Text.isIdentifier name = true ∧ name ≠ "true" ∧ name ≠ "false"
  | _ => True

/-- Each operand or field is proper. -/
def Node.IsProper (m : Module) : Node → Prop
  | .tuple operands => ∀ operand ∈ operands, operand.IsProper m
  | .debug content _ =>
    ∀ field ∈ content.fields, Text.isIdentifier field.1 = true ∧ field.2.IsProper

instance (m : Module) : DecidablePred (Operand.IsProper m)
  | .int bits value => inferInstanceAs (Decidable (bits = 1 → value = 0 ∨ value = 1))
  | .node id => inferInstanceAs (Decidable (id.index < m.graph.size))
  | .function id => inferInstanceAs
      (Decidable (∃ f ∈ m.function? id, f.name.toList.all Text.isSymbolChar = true))
  | .str _ => .isTrue trivial
  | .null => .isTrue trivial
  | .list _ => .isTrue trivial

instance : DecidablePred FieldValue.IsProper
  | .token name => inferInstanceAs
      (Decidable (Text.isIdentifier name = true ∧ name ≠ "true" ∧ name ≠ "false"))
  | .int _ => .isTrue trivial
  | .bool _ => .isTrue trivial
  | .str _ => .isTrue trivial
  | .node _ => .isTrue trivial

instance (m : Module) : DecidablePred (Node.IsProper m)
  | .tuple operands => inferInstanceAs (Decidable (∀ operand ∈ operands, operand.IsProper m))
  | .debug content _ => inferInstanceAs (Decidable
      (∀ field ∈ content.fields, Text.isIdentifier field.1 = true ∧ field.2.IsProper))

theorem Ty.at_not_mem_text (ty : Ty) : '@' ∉ ty.text.toList := by
  cases ty <;> decide

theorem Ty.text_starts (ty : Ty) : ∃ c rest, ty.text.toList = c :: rest ∧ c ∉ delimiters := by
  cases ty <;> exact ⟨_, _, rfl, by decide⟩

theorem Signature.at_not_mem_text (s : Signature) : '@' ∉ s.text.toList := by
  have hparams : '@' ∉ (", ".intercalate (s.params.map Ty.text)).toList := by
    rw [String.toList_intercalate]
    intro h
    rcases mem_intercalate h with h | ⟨item, hitem, h⟩
    · exact absurd h (by decide)
    · rw [List.map_map] at hitem
      obtain ⟨ty, -, rfl⟩ := List.mem_map.mp hitem
      exact ty.at_not_mem_text h
  simp only [Signature.text, Signature.paramsText, String.toList_append, List.mem_append, not_or]
  exact ⟨⟨s.result.at_not_mem_text, by decide⟩, ⟨by decide, hparams⟩, by decide⟩

theorem NodeKind.name_inj {kind kind' : NodeKind} : kind.name = kind'.name ↔ kind = kind' := by
  cases kind <;> cases kind' <;> decide

namespace Assembly

variable {m : Module} {s t : List Char}

/-! ## Words and numbers -/

theorem boolWord_append_inj {x y : Bool} (h : (boolWord x).toList ++ s = (boolWord y).toList ++ t) :
    x = y ∧ s = t := by
  cases x with
  | true =>
      cases y with
      | true => exact ⟨rfl, List.append_cancel_left h⟩
      | false => exact absurd (List.cons.inj h).1 (by decide)
  | false =>
      cases y with
      | true => exact absurd (List.cons.inj h).1 (by decide)
      | false => exact ⟨rfl, List.append_cancel_left h⟩

theorem isWordChar_of_mem_boolWord {x : Bool} :
    ∀ c ∈ (boolWord x).toList, Text.isWordChar c = true := by
  rw [← List.all_eq_true]
  cases x <;> decide

theorem numberRef_append_inj {n n' : Nat} (hs : Delimited s) (ht : Delimited t)
    (h : (numberRef n).toList ++ s = (numberRef n').toList ++ t) : n = n' ∧ s = t := by
  rw [numberRef, numberRef, String.toList_append, String.toList_append, List.append_assoc,
    List.append_assoc] at h
  exact Text.repr_append_inj (hs.leaves (by decide)) (ht.leaves (by decide))
    (List.append_cancel_left h)

/-! ## Forms -/

/-- How something is written. -/
inductive Form where
  | literal
  | reference
  | word
  | integer
  | function
  deriving DecidableEq

def operandForm : Operand → Form
  | .int _ _ => .integer
  | .str _ => .literal
  | .node _ => .reference
  | .null => .word
  | .function _ => .function
  | .list _ => .reference

def valueForm : FieldValue → Form
  | .int _ => .integer
  | .bool _ => .word
  | .str _ => .literal
  | .token _ => .word
  | .node _ => .reference

/-- The form of the operand that a text starts with.  A type and a width end at a space, and
only the parameters of a function start with a parenthesis after it. -/
def readOperandForm : List Char → Form
  | '!' :: c :: _ => if c = '"' then .literal else .reference
  | 'n' :: _ => .word
  | text => if [' ', '('] <+: text.dropWhile (· != ' ') then .function else .integer

/-- The form of the field value that a text starts with. -/
def readValueForm : List Char → Form
  | [] => .word
  | c :: _ =>
    if Text.isWordStart c then .word
    else if isNumeral c then .integer
    else if c = '"' then .literal
    else .reference

theorem readOperandForm_numberRef (n : Nat) (s : List Char) :
    readOperandForm ((numberRef n).toList ++ s) = .reference := by
  obtain ⟨c, rest, hn, hc⟩ := Text.exists_cons (Nat.repr_ne_empty (n := n)) Text.isDigit_of_mem_repr
  rw [numberRef, String.toList_append, hn]
  have hquote : c ≠ '"' := by
    rintro rfl
    cases hc
  exact if_neg hquote

theorem toList_integer (bits : Nat) (value : Int) :
    (integer bits value).toList = 'i' :: (bits.repr.toList ++
      ' ' :: (if bits = 1 then boolWord (value != 0) else decimal value).toList) := by
  rw [integer, String.toList_append, String.toList_append, String.toList_append, List.append_assoc,
    List.append_assoc]
  rfl

theorem readOperandForm_integer (bits : Nat) (value : Int) (s : List Char) :
    readOperandForm ((integer bits value).toList ++ s) = .integer := by
  have hvalue : ∃ c rest, (if bits = 1 then boolWord (value != 0) else decimal value).toList =
      c :: rest ∧ c ≠ '(' := by
    split
    · cases value != 0 with
      | true => exact ⟨'t', _, rfl, by decide⟩
      | false => exact ⟨'f', _, rfl, by decide⟩
    · obtain ⟨c, rest, hvalue, hc⟩ := Text.decimal_starts value
      refine ⟨c, rest, hvalue, ?_⟩
      rintro rfl
      cases hc
  obtain ⟨c, rest, hvalue, hc⟩ := hvalue
  have hdrop : (bits.repr.toList ++ ' ' :: c :: (rest ++ s)).dropWhile (· != ' ') =
      ' ' :: c :: (rest ++ s) := by
    rw [List.dropWhile_append_of_pos]
    · rfl
    · intro c hc
      rw [bne_iff_ne]
      rintro rfl
      cases Text.isDigit_of_mem_repr _ hc
  rw [toList_integer, hvalue, List.cons_append, List.append_assoc]
  show (if [' ', '('] <+: (bits.repr.toList ++ ' ' :: c :: (rest ++ s)).dropWhile (· != ' ')
    then Form.function else Form.integer) = .integer
  rw [hdrop, if_neg]
  intro hprefix
  exact hc (List.cons_prefix_cons.mp (List.cons_prefix_cons.mp hprefix).2).1.symm

theorem readOperandForm_function (f : Function) (s : List Char) :
    readOperandForm ((f.signature.text ++ "* @" ++ f.name).toList ++ s) = .function := by
  rw [Signature.text, Signature.paramsText]
  simp only [String.toList_append, List.append_assoc]
  cases f.signature.result <;> rfl

theorem readOperandForm_operand? {x : Operand} {item : String} (hx : operand? m x = some item)
    (s : List Char) : readOperandForm (item.toList ++ s) = operandForm x := by
  cases x with
  | function id =>
      obtain ⟨f, -, rfl⟩ := Option.map_eq_some_iff.mp hx
      exact readOperandForm_function f s
  | int bits value =>
      cases hx
      exact readOperandForm_integer bits value s
  | str text =>
      cases hx
      rw [String.toList_append, Text.toList_literal]
      rfl
  | null =>
      cases hx
      rfl
  | node id =>
      cases hx
      exact readOperandForm_numberRef id.index s
  | list id =>
      cases hx
      exact readOperandForm_numberRef (listNumber m.graph id) s

theorem readValueForm_fieldValue {x : FieldValue} (hx : x.IsProper) (s : List Char) :
    readValueForm ((fieldValue x).toList ++ s) = valueForm x := by
  cases x with
  | int value =>
      obtain ⟨c, rest, hvalue, hc⟩ := Text.decimal_starts value
      rw [fieldValue, hvalue, List.cons_append, readValueForm, Text.isWordStart_of_isNumeral hc,
        if_neg Bool.false_ne_true, if_pos hc]
      rfl
  | bool value => cases value <;> rfl
  | str text =>
      rw [fieldValue, Text.toList_literal]
      rfl
  | token name =>
      obtain ⟨c, rest, hname, hc⟩ := Text.isIdentifier_starts hx.1
      rw [fieldValue, hname, List.cons_append, readValueForm, if_pos hc]
      rfl
  | node id =>
      rw [fieldValue, nodeRef, numberRef, String.toList_append]
      rfl

/-! ## Operands -/

theorem integer_append_inj {bits bits' : Nat} {value value' : Int}
    (hvalue : bits = 1 → value = 0 ∨ value = 1) (hvalue' : bits' = 1 → value' = 0 ∨ value' = 1)
    (hs : Delimited s) (ht : Delimited t)
    (h : (integer bits value).toList ++ s = (integer bits' value').toList ++ t) :
    bits = bits' ∧ value = value' ∧ s = t := by
  rw [toList_integer, toList_integer, List.cons_append, List.cons_append, List.append_assoc,
    List.append_assoc] at h
  obtain ⟨rfl, h⟩ := Text.repr_append_inj (leaves_cons rfl) (leaves_cons rfl) (List.cons.inj h).2
  have hrest := (List.cons.inj h).2
  refine ⟨rfl, ?_⟩
  by_cases hbits : bits = 1
  · rw [if_pos hbits, if_pos hbits] at hrest
    obtain ⟨hword, hst⟩ := boolWord_append_inj hrest
    refine ⟨?_, hst⟩
    rcases hvalue hbits with rfl | rfl <;> rcases hvalue' hbits with rfl | rfl
    · rfl
    · cases hword
    · cases hword
    · rfl
  · rw [if_neg hbits, if_neg hbits] at hrest
    exact Text.decimal_append_inj (hs.leaves (by decide)) (ht.leaves (by decide)) hrest

/-- The name of a function stands behind the only `@` of its text. -/
theorem function_append_inj {f f' : Function} (hf : f.name.toList.all Text.isSymbolChar = true)
    (hf' : f'.name.toList.all Text.isSymbolChar = true) (hs : Delimited s) (ht : Delimited t)
    (h : (f.signature.text ++ "* @" ++ f.name).toList ++ s =
      (f'.signature.text ++ "* @" ++ f'.name).toList ++ t) : f.name = f'.name ∧ s = t := by
  have hsignature (f : Function) : ∀ c ∈ (f.signature.text ++ "* ").toList, (c != '@') = true := by
    intro c hc
    rw [bne_iff_ne]
    rintro rfl
    rw [String.toList_append, List.mem_append] at hc
    exact hc.elim f.signature.at_not_mem_text (by decide)
  have hat (f : Function) : (f.signature.text ++ "* @" ++ f.name).toList =
      (f.signature.text ++ "* ").toList ++ '@' :: f.name.toList := by
    rw [String.toList_append, String.toList_append, String.toList_append, List.append_assoc,
      List.append_assoc]
    rfl
  rw [hat, hat, List.append_assoc, List.append_assoc] at h
  obtain ⟨-, h⟩ := Text.append_inj_of_leaves (hsignature f) (hsignature f') (leaves_cons rfl)
    (leaves_cons rfl) h
  obtain ⟨hname, hst⟩ := Text.append_inj_of_leaves (List.all_eq_true.mp hf)
    (List.all_eq_true.mp hf') (hs.leaves (by decide)) (ht.leaves (by decide)) (List.cons.inj h).2
  exact ⟨String.toList_inj.mp hname, hst⟩

theorem eq_of_names_eq (hnames : m.names.Nodup) {id id' : FunctionId} {f f' : Function}
    (hf : m.function? id = some f) (hf' : m.function? id' = some f') (hname : f.name = f'.name) :
    id = id' := by
  have hsame : m.names[id.index]? = m.names[id'.index]? := by
    rw [m.getElem?_names, m.getElem?_names, hf, hf', Option.map_some, Option.map_some, hname]
  have hlt : id.index < m.names.length := by
    rw [m.length_names]
    exact (Array.getElem?_eq_some_iff.mp hf).1
  exact congrArg FunctionId.mk ((List.getElem?_inj hlt hnames).mp hsame)

/-- Operands are told apart by their texts if the functions have names of their own. -/
theorem operand?_append_inj (hnames : m.names.Nodup) {x y : Operand} {a b : String}
    (hx : x.IsProper m) (hy : y.IsProper m) (ha : operand? m x = some a)
    (hb : operand? m y = some b) (hs : Delimited s) (ht : Delimited t)
    (h : a.toList ++ s = b.toList ++ t) : x = y ∧ s = t := by
  have hform : operandForm x = operandForm y := by
    rw [← readOperandForm_operand? ha s, h, readOperandForm_operand? hb t]
  cases x with
  | int bits value =>
      cases y with
      | int bits' value' =>
          cases ha
          cases hb
          obtain ⟨rfl, rfl, hst⟩ := integer_append_inj hx hy hs ht h
          exact ⟨rfl, hst⟩
      | _ => cases hform
  | str text =>
      cases y with
      | str text' =>
          cases ha
          cases hb
          rw [String.toList_append, String.toList_append] at h
          obtain ⟨rfl, hst⟩ := Text.literal_append_inj (List.cons.inj h).2
          exact ⟨rfl, hst⟩
      | _ => cases hform
  | null =>
      cases y with
      | null =>
          cases ha
          cases hb
          exact ⟨rfl, List.append_cancel_left h⟩
      | _ => cases hform
  | function id =>
      cases y with
      | function id' =>
          obtain ⟨f, hf, hplain⟩ := hx
          obtain ⟨f', hf', hplain'⟩ := hy
          rw [operand?, hf] at ha
          rw [operand?, hf'] at hb
          cases ha
          cases hb
          obtain ⟨hname, hst⟩ := function_append_inj hplain hplain' hs ht h
          exact ⟨by rw [eq_of_names_eq hnames hf hf' hname], hst⟩
      | _ => cases hform
  | node id =>
      cases y with
      | node id' =>
          cases ha
          cases hb
          obtain ⟨hnumber, hst⟩ := numberRef_append_inj hs ht h
          exact ⟨congrArg (fun index => Operand.node ⟨index⟩) hnumber, hst⟩
      | list id' =>
          cases ha
          cases hb
          -- A list has its number after all nodes, and this node is one of them.
          obtain ⟨hnumber, -⟩ := numberRef_append_inj hs ht h
          exact absurd hx (by rw [Operand.IsProper, hnumber, listNumber]; omega)
      | _ => cases hform
  | list id =>
      cases y with
      | node id' =>
          cases ha
          cases hb
          obtain ⟨hnumber, -⟩ := numberRef_append_inj hs ht h
          exact absurd hy (by rw [Operand.IsProper, ← hnumber, listNumber]; omega)
      | list id' =>
          cases ha
          cases hb
          obtain ⟨hnumber, hst⟩ := numberRef_append_inj hs ht h
          rw [listNumber, listNumber, Nat.add_left_cancel_iff] at hnumber
          exact ⟨congrArg (fun index => Operand.list ⟨index⟩) hnumber, hst⟩
      | _ => cases hform

/-- The operands that can be told, with their texts. -/
def OperandText (m : Module) (x : Operand) (text : List Char) : Prop :=
  x.IsProper m ∧ ∃ item, operand? m x = some item ∧ text = item.toList

theorem toldApart_operandText (hnames : m.names.Nodup) : ToldApart (OperandText m) where
  eq := by
    rintro x y _ _ s t ⟨hx, a, ha, rfl⟩ ⟨hy, b, hb, rfl⟩ hs ht h
    exact operand?_append_inj hnames hx hy ha hb hs ht h
  starts := by
    rintro x _ ⟨-, a, ha, rfl⟩
    cases x with
    | int bits value =>
        cases ha
        exact ⟨'i', _, toList_integer bits value, by decide⟩
    | null =>
        cases ha
        exact ⟨'n', _, rfl, by decide⟩
    | function id =>
        obtain ⟨f, -, rfl⟩ := Option.map_eq_some_iff.mp ha
        obtain ⟨c, rest, hty, hc⟩ := f.signature.result.text_starts
        refine ⟨c, rest ++ (" " ++ f.signature.paramsText ++ "* @" ++ f.name).toList, ?_, hc⟩
        rw [← List.cons_append, ← hty, ← String.toList_append, Signature.text]
        simp only [String.append_assoc]
    | _ =>
        cases ha
        exact ⟨'!', _, String.toList_append, by decide⟩

/-! ## Fields -/

/-- Field values are told apart by their texts. -/
theorem fieldValue_append_inj {x y : FieldValue} (hx : x.IsProper) (hy : y.IsProper)
    (hs : Delimited s) (ht : Delimited t)
    (h : (fieldValue x).toList ++ s = (fieldValue y).toList ++ t) : x = y ∧ s = t := by
  have hform : valueForm x = valueForm y := by
    rw [← readValueForm_fieldValue hx s, h, readValueForm_fieldValue hy t]
  have hsword : Leaves Text.isWordChar s := hs.leaves (by decide)
  have htword : Leaves Text.isWordChar t := ht.leaves (by decide)
  cases x with
  | int value =>
      cases y with
      | int value' =>
          obtain ⟨rfl, hst⟩ :=
            Text.decimal_append_inj (hs.leaves (by decide)) (ht.leaves (by decide)) h
          exact ⟨rfl, hst⟩
      | _ => cases hform
  | bool value =>
      cases y with
      | bool value' =>
          obtain ⟨rfl, hst⟩ := boolWord_append_inj h
          exact ⟨rfl, hst⟩
      | token name' =>
          obtain ⟨rfl, -⟩ := Text.word_append_inj isWordChar_of_mem_boolWord
            (Text.isWordChar_of_mem_identifier hy.1) hsword htword h
          cases value with
          | true => exact absurd rfl hy.2.1
          | false => exact absurd rfl hy.2.2
      | _ => cases hform
  | str text =>
      cases y with
      | str text' =>
          obtain ⟨rfl, hst⟩ := Text.literal_append_inj h
          exact ⟨rfl, hst⟩
      | _ => cases hform
  | token name =>
      have hname := Text.isWordChar_of_mem_identifier hx.1
      cases y with
      | bool value' =>
          obtain ⟨rfl, -⟩ := Text.word_append_inj hname isWordChar_of_mem_boolWord hsword htword h
          cases value' with
          | true => exact absurd rfl hx.2.1
          | false => exact absurd rfl hx.2.2
      | token name' =>
          obtain ⟨rfl, hst⟩ := Text.word_append_inj hname
            (Text.isWordChar_of_mem_identifier hy.1) hsword htword h
          exact ⟨rfl, hst⟩
      | _ => cases hform
  | node id =>
      cases y with
      | node id' =>
          obtain ⟨hnumber, hst⟩ := numberRef_append_inj hs ht h
          exact ⟨congrArg (fun index => FieldValue.node ⟨index⟩) hnumber, hst⟩
      | _ => cases hform

/-- The fields that can be told, with their texts. -/
def FieldText (field : String × FieldValue) (text : List Char) : Prop :=
  Text.isIdentifier field.1 = true ∧ field.2.IsProper ∧
    text = (field.1 ++ ": " ++ fieldValue field.2).toList

theorem toldApart_fieldText : ToldApart FieldText where
  eq := by
    rintro ⟨name, x⟩ ⟨name', y⟩ _ _ s t ⟨hname, hx, rfl⟩ ⟨hname', hy, rfl⟩ hs ht h
    have hsplit (name : String) (x : FieldValue) (s : List Char) :
        (name ++ ": " ++ fieldValue x).toList ++ s =
          name.toList ++ ':' :: ' ' :: ((fieldValue x).toList ++ s) := by
      rw [String.toList_append, String.toList_append, List.append_assoc, List.append_assoc]
      rfl
    rw [hsplit, hsplit] at h
    obtain ⟨rfl, h⟩ := Text.word_append_inj (Text.isWordChar_of_mem_identifier hname)
      (Text.isWordChar_of_mem_identifier hname') (leaves_cons rfl) (leaves_cons rfl) h
    obtain ⟨rfl, hst⟩ := fieldValue_append_inj hx hy hs ht (List.cons.inj (List.cons.inj h).2).2
    exact ⟨rfl, hst⟩
  starts := by
    rintro ⟨name, x⟩ _ ⟨hname, -, rfl⟩
    obtain ⟨c, rest, hlist, hc⟩ := Text.isIdentifier_starts hname
    refine ⟨c, _, by rw [String.toList_append, String.toList_append, hlist]; rfl, ?_⟩
    intro hdelimiter
    have hnone : Text.isWordStart c = false :=
      Text.eq_false_of_mem_delimiters (by decide) hdelimiter
    rw [hnone] at hc
    cases hc

/-! ## Nodes -/

theorem toList_tuple (items : List String) (s : List Char) :
    (tuple items).toList ++ s =
      '!' :: '\x7b' :: ([',', ' '].intercalate (items.map String.toList) ++ '\x7d' :: s) := by
  rw [tuple, commaSeparated, String.toList_append, String.toList_append, String.toList_intercalate,
    List.append_assoc, List.append_assoc]
  rfl

/-- What a debug node is written with behind the word for a distinct one. -/
def fieldsText (content : DebugNode) : List Char :=
  '!' :: (content.kind.name.toList ++ '(' :: ([',', ' '].intercalate
    (content.fields.map fun field => (field.1 ++ ": " ++ fieldValue field.2).toList) ++ [')']))

theorem toList_debugNode (content : DebugNode) (distinct : Bool) :
    (debugNode content distinct).toList =
      (if distinct then "distinct " else "").toList ++ fieldsText content := by
  simp only [debugNode, fieldsText, commaSeparated, String.toList_append,
    String.toList_intercalate, List.map_map, Function.comp_def, List.append_assoc]
  rfl

theorem fieldsText_inj {content content' : DebugNode}
    (hx : ∀ field ∈ content.fields, Text.isIdentifier field.1 = true ∧ field.2.IsProper)
    (hy : ∀ field ∈ content'.fields, Text.isIdentifier field.1 = true ∧ field.2.IsProper)
    (h : fieldsText content = fieldsText content') : content = content' := by
  have htexts {content : DebugNode}
      (hx : ∀ field ∈ content.fields, Text.isIdentifier field.1 = true ∧ field.2.IsProper) :
      List.Forall₂ FieldText content.fields
        (content.fields.map fun field => (field.1 ++ ": " ++ fieldValue field.2).toList) := by
    rw [List.forall₂_map_right_iff, List.forall₂_same]
    exact fun field hfield => ⟨(hx field hfield).1, (hx field hfield).2, rfl⟩
  have hkind (kind : NodeKind) : ∀ c ∈ kind.name.toList, Text.isWordChar c = true := by
    rw [← List.all_eq_true]
    cases kind <;> decide
  obtain ⟨hname, h⟩ := Text.word_append_inj (hkind content.kind) (hkind content'.kind)
    (leaves_cons rfl) (leaves_cons rfl) (List.cons.inj h).2
  obtain ⟨hfields, -⟩ := toldApart_fieldText.intercalate_append_inj (by decide) (by decide)
    (htexts hx) (htexts hy) (List.cons.inj h).2
  cases content
  cases content'
  rw [DebugNode.mk.injEq]
  exact ⟨NodeKind.name_inj.mp hname, hfields⟩

theorem debugNode_inj {content content' : DebugNode} {distinct distinct' : Bool}
    (hx : (Node.debug content distinct).IsProper m)
    (hy : (Node.debug content' distinct').IsProper m)
    (h : debugNode content distinct = debugNode content' distinct') :
    content = content' ∧ distinct = distinct' := by
  have hlist := congrArg String.toList h
  rw [toList_debugNode, toList_debugNode] at hlist
  cases distinct with
  | true =>
      cases distinct' with
      | true => exact ⟨fieldsText_inj hx hy (List.append_cancel_left hlist), rfl⟩
      | false => exact absurd (List.cons.inj hlist).1 (by decide)
  | false =>
      cases distinct' with
      | true => exact absurd (List.cons.inj hlist).1 (by decide)
      | false => exact ⟨fieldsText_inj hx hy hlist, rfl⟩

theorem tuple_ne_debugNode (items : List String) (content : DebugNode) (distinct : Bool) :
    tuple items ≠ debugNode content distinct := by
  intro h
  have hlist := congrArg String.toList h
  rw [← List.append_nil (tuple items).toList, toList_tuple, toList_debugNode, fieldsText] at hlist
  cases distinct with
  | true => exact absurd (List.cons.inj hlist).1 (by decide)
  | false =>
      have hkind := (List.cons.inj hlist).2
      cases hname : content.kind <;> rw [hname] at hkind <;>
        exact absurd (List.cons.inj hkind).1 (by decide)

theorem isSome_node?_of_isProper {node : Node} (h : node.IsProper m) : (node? m node).isSome := by
  rw [isSome_node?_iff]
  rintro operands function rfl hmem
  obtain ⟨f, hf, -⟩ := h _ hmem
  exact Option.isSome_of_mem hf

theorem node?_inj (hnames : m.names.Nodup) {x y : Node} {text : String} (hx : x.IsProper m)
    (hy : y.IsProper m) (hxtext : node? m x = some text) (hytext : node? m y = some text) :
    x = y := by
  have htexts {operands : List Operand} {items : List String}
      (hproper : ∀ operand ∈ operands, operand.IsProper m)
      (hitems : operands.mapM (operand? m) = some items) :
      List.Forall₂ (OperandText m) operands (items.map String.toList) := by
    rw [List.forall₂_map_right_iff]
    apply (List.forall₂_and_left operands items).mpr
    exact ⟨hproper, (mapM_eq_some_iff.mp hitems).imp fun _ item hitem => ⟨item, hitem, rfl⟩⟩
  cases x with
  | tuple operands =>
      obtain ⟨items, hitems, htext⟩ := Option.bind_eq_some_iff.mp hxtext
      cases htext
      cases y with
      | tuple operands' =>
          obtain ⟨items', hitems', htext⟩ := Option.bind_eq_some_iff.mp hytext
          have hlist := congrArg (fun text => text.toList ++ []) (Option.some.inj htext)
          simp only [toList_tuple] at hlist
          have hinside := (List.cons.inj (List.cons.inj hlist).2).2
          obtain ⟨rfl, -⟩ := (toldApart_operandText hnames).intercalate_append_inj (by decide)
            (by decide) (htexts hy hitems') (htexts hx hitems) hinside
          rfl
      | debug content distinct =>
          exact absurd (Option.some.inj hytext).symm (tuple_ne_debugNode items content distinct)
  | debug content distinct =>
      cases hxtext
      cases y with
      | tuple operands' =>
          obtain ⟨items', -, htext⟩ := Option.bind_eq_some_iff.mp hytext
          exact absurd (Option.some.inj htext) (tuple_ne_debugNode items' content distinct)
      | debug content' distinct' =>
          obtain ⟨rfl, rfl⟩ := debugNode_inj hx hy (Option.some.inj hytext).symm
          rfl

/-- A node that can be told is printed, and no other one is printed like it. -/
theorem exists_node?_eq_iff (hnames : m.names.Nodup) {x y : Node} (hx : x.IsProper m)
    (hy : y.IsProper m) :
    ∃ text text', node? m x = some text ∧ node? m y = some text' ∧ (text = text' ↔ x = y) := by
  obtain ⟨text, htext⟩ := Option.isSome_iff_exists.mp (isSome_node?_of_isProper hx)
  obtain ⟨text', htext'⟩ := Option.isSome_iff_exists.mp (isSome_node?_of_isProper hy)
  refine ⟨text, text', htext, htext', ?_, ?_⟩
  · rintro rfl
    exact node?_inj hnames hx hy htext htext'
  · rintro rfl
    exact Option.some.inj (htext.symm.trans htext')

/-- A node, a list and two functions whose names start alike. -/
def lookalike : Module where
  name := "m"
  functions := #[{ name := "f", signature := .unit },
    { name := "f.1", signature := ⟨.void, [.i32, .ptr]⟩ }]
  graph := { nodes := #[.tuple []], lists := #[#[]] }

/-- A string that looks like the end of a tuple, and references that look alike. -/
def lookalikeTuple (first second : Operand) : Node :=
  .tuple [.function ⟨1⟩, .str "\", !1, null\x7d", .null, .int 1 1, .int 64 (-1), first, second]

theorem exists_node?_eq_iff_of_lookalike :
    lookalike.names.Nodup ∧
    (lookalikeTuple (.node ⟨0⟩) (.list ⟨0⟩)).IsProper lookalike ∧
    (lookalikeTuple (.list ⟨0⟩) (.node ⟨0⟩)).IsProper lookalike ∧
    ∃ text text', node? lookalike (lookalikeTuple (.node ⟨0⟩) (.list ⟨0⟩)) = some text ∧
      node? lookalike (lookalikeTuple (.list ⟨0⟩) (.node ⟨0⟩)) = some text' ∧
      (text = text' ↔
        lookalikeTuple (.node ⟨0⟩) (.list ⟨0⟩) = lookalikeTuple (.list ⟨0⟩) (.node ⟨0⟩)) := by
  have hnames : lookalike.names.Nodup := by decide
  have hx : (lookalikeTuple (.node ⟨0⟩) (.list ⟨0⟩)).IsProper lookalike := by decide
  have hy : (lookalikeTuple (.list ⟨0⟩) (.node ⟨0⟩)).IsProper lookalike := by decide
  exact ⟨hnames, hx, hy, exists_node?_eq_iff hnames hx hy⟩

example : node? lookalike (lookalikeTuple (.node ⟨0⟩) (.list ⟨0⟩)) = some
    "!\x7bvoid (i32, ptr)* @f.1, !\"\\22, !1, null\x7d\", null, i1 true, i64 -1, !0, !1\x7d" := by
  decide +kernel

end Assembly

end DebugMetadata

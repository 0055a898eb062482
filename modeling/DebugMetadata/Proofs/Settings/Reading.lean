import DebugMetadata.Proofs.Text.Blank
import DebugMetadata.Proofs.Text.Strict
import DebugMetadata.Settings.Reading

/-!
# The texts that settings are read from

A level or a schema is read from the texts that name one of its words, and any other text is
refused with itself.  Of the two variables the level is read first, so a fault of its text
hides whatever the schema variable holds.
-/

namespace DebugMetadata

open Text (Names IsWord settingWord settingWord_eq_iff)

variable {text word name : String} {fault : Fault} {α : Type}
  {value? : String → Option (List UInt8)}

/-! ## Words -/

theorem settingWord_mem_iff {words : List String} (hwords : ∀ word ∈ words, IsWord word) :
    settingWord text ∈ words ↔ ∃ word ∈ words, Names text word := by
  constructor
  · intro h
    exact ⟨_, h, (settingWord_eq_iff (hwords _ h)).mp rfl⟩
  · rintro ⟨word, hword, hnames⟩
    rwa [(settingWord_eq_iff (hwords word hword)).mpr hnames]

/-- What was found, or the fault. -/
def foundOr (fault : Fault) : Option α → Except Fault α
  | some x => .ok x
  | none => .error fault

theorem foundOr_eq_ok_iff {found : Option α} {x : α} :
    foundOr fault found = .ok x ↔ found = some x := by
  cases found with
  | none => exact ⟨nofun, nofun⟩
  | some y => rw [foundOr, Except.ok.injEq, Option.some.injEq]

theorem foundOr_eq_error_iff {found : Option α} {fault' : Fault} :
    foundOr fault found = .error fault' ↔
      fault' = fault ∧ ∀ x, foundOr fault found ≠ .ok x := by
  cases found with
  | none =>
      rw [foundOr, Except.error.injEq, eq_comm]
      exact (and_iff_left nofun).symm
  | some y => exact ⟨nofun, fun h => absurd rfl (h.2 y)⟩

/-- A value is parsed from the texts that name one of its words, and a text from which none is
parsed is refused. -/
structure ReadsWords (parse : String → Except Fault α) (words : α → List String)
    (bad : String → Fault) : Prop where
  ok_iff {text : String} {x : α} : parse text = .ok x ↔ ∃ word ∈ words x, Names text word
  error_iff {text : String} {fault : Fault} :
    parse text = .error fault ↔ fault = bad text ∧ ∀ x, parse text ≠ .ok x

namespace ReadsWords

variable {parse : String → Except Fault α} {words : α → List String} {bad : String → Fault}
  {ofWord? : String → Option α}

theorem of_ofWord? (hparse : ∀ text, parse text = foundOr (bad text) (ofWord? (settingWord text)))
    (hwords : ∀ x, ∀ word ∈ words x, IsWord word)
    (hfound : ∀ {word x}, ofWord? word = some x ↔ word ∈ words x) :
    ReadsWords parse words bad where
  ok_iff {text x} := by
    rw [← settingWord_mem_iff (hwords x), ← hfound, hparse, foundOr_eq_ok_iff]
  error_iff {text fault} := by
    rw [hparse, foundOr_eq_error_iff]

theorem refuses_iff (h : ReadsWords parse words bad) :
    parse text = .error fault ↔ fault = bad text ∧ ∀ x, ∀ word ∈ words x, ¬Names text word := by
  rw [h.error_iff]
  refine and_congr_right fun _ => ⟨fun hrefused x word hword hnames => ?_, fun hnone x hx => ?_⟩
  · exact hrefused x (h.ok_iff.mpr ⟨word, hword, hnames⟩)
  · obtain ⟨word, hword, hnames⟩ := h.ok_iff.mp hx
    exact hnone x word hword hnames

end ReadsWords

namespace Level

def words : Level → List String
  | .off => ["0", "false", "off", "none"]
  | .full => ["1", "true", "on", "full"]

theorem isWord_of_mem_words (level : Level) : ∀ word ∈ level.words, IsWord word := by
  cases level <;> decide

theorem forall_words_iff {P : String → Prop} : (∀ level : Level, ∀ word ∈ level.words, P word) ↔
    ∀ word ∈ Level.full.words ++ Level.off.words, P word := by
  rw [List.forall_mem_append]
  constructor
  · exact fun h => ⟨h .full, h .off⟩
  · rintro ⟨hfull, hoff⟩ level
    cases level with
    | off => exact hoff
    | full => exact hfull

theorem ofWord?_eq_some_iff {level : Level} : ofWord? word = some level ↔ word ∈ level.words := by
  constructor
  · intro h
    rw [ofWord?] at h
    split_ifs at h with hoff hfull
    · cases h
      exact hoff
    · cases h
      exact hfull
  · intro h
    have hwords : ∀ word ∈ level.words, ofWord? word = some level := by cases level <;> decide
    exact hwords word h

theorem readsWords : ReadsWords parse words .unknownLevel := by
  refine .of_ofWord? (fun text => ?_) isWord_of_mem_words ofWord?_eq_some_iff
  rw [parse]
  cases ofWord? (settingWord text) <;> rfl

end Level

namespace Schema

def words : Schema → List String
  | .modern => ["modern"]
  | .legacy => ["legacy", "nvvm"]

theorem isWord_of_mem_words (schema : Schema) : ∀ word ∈ schema.words, IsWord word := by
  cases schema <;> decide

theorem forall_words_iff {P : String → Prop} :
    (∀ schema : Schema, ∀ word ∈ schema.words, P word) ↔
      ∀ word ∈ Schema.modern.words ++ Schema.legacy.words, P word := by
  rw [List.forall_mem_append]
  constructor
  · exact fun h => ⟨h .modern, h .legacy⟩
  · rintro ⟨hmodern, hlegacy⟩ schema
    cases schema with
    | modern => exact hmodern
    | legacy => exact hlegacy

theorem ofWord?_eq_some_iff {schema : Schema} :
    ofWord? word = some schema ↔ word ∈ schema.words := by
  constructor
  · intro h
    rw [ofWord?] at h
    split_ifs at h with hmodern hlegacy
    · cases h
      exact List.mem_singleton.mpr hmodern
    · cases h
      exact hlegacy
  · intro h
    have hwords : ∀ word ∈ schema.words, ofWord? word = some schema := by cases schema <;> decide
    exact hwords word h

theorem readsWords : ReadsWords parse words .unknownSchema := by
  refine .of_ofWord? (fun text => ?_) isWord_of_mem_words ofWord?_eq_some_iff
  rw [parse]
  cases ofWord? (settingWord text) <;> rfl

end Schema

/-! ## Variables -/

namespace Settings

/-- The variable is set to the UTF-8 of the text. -/
def Holds (value? : String → Option (List UInt8)) (name text : String) : Prop :=
  value? name = some text.toUTF8.data.toList

/-- The variable stands for what its text is parsed to, and for the default if it is unset or
not UTF-8. -/
def Gives (value? : String → Option (List UInt8)) (name : String)
    (parse : String → Except Fault α) (default x : α) : Prop :=
  (∃ text, Holds value? name text ∧ parse text = .ok x) ∨
    (∀ text, ¬Holds value? name text) ∧ x = default

/-- What the two variables ask for. -/
inductive Reads (value? : String → Option (List UInt8)) : Except Fault Settings → Prop where
  | unknownLevel {text : String} (hset : Holds value? levelVariable text)
      (hbad : ∀ level, Level.parse text ≠ .ok level) : Reads value? (.error (.unknownLevel text))
  | unknownSchema {text : String} {level : Level}
      (hlevel : Gives value? levelVariable Level.parse ({} : Settings).level level)
      (hset : Holds value? schemaVariable text)
      (hbad : ∀ schema, Schema.parse text ≠ .ok schema) :
      Reads value? (.error (.unknownSchema text))
  | ok {level : Level} {schema : Schema}
      (hlevel : Gives value? levelVariable Level.parse ({} : Settings).level level)
      (hschema : Gives value? schemaVariable Schema.parse ({} : Settings).schema schema) :
      Reads value? (.ok { ({} : Settings) with level, schema })

variable {parse : String → Except Fault α} {default x : α} {bad : String → Fault}

theorem text?_eq_some_iff :
    (value? name >>= Text.Utf8.text?) = some text ↔ Holds value? name text := by
  rw [Holds, ← Text.Utf8.ofString_eq_toUTF8]
  constructor
  · intro h
    obtain ⟨bytes, hbytes, htext⟩ := Option.bind_eq_some_iff.mp h
    rw [hbytes, Text.Utf8.text?_eq_some_iff.mp htext]
  · intro h
    rw [h]
    exact Text.Utf8.text?_eq_some_iff.mpr rfl

theorem Holds.eq {text' : String} (h : Holds value? name text) (h' : Holds value? name text') :
    text = text' :=
  Option.some.inj ((text?_eq_some_iff.mpr h).symm.trans (text?_eq_some_iff.mpr h'))

/-- Reads one variable. -/
def readVariable (value? : String → Option (List UInt8)) (name : String)
    (parse : String → Except Fault α) (default : α) : Except Fault α :=
  match value? name >>= Text.Utf8.text? with
  | some text => parse text
  | none => .ok default

theorem readVariable_of_holds (h : Holds value? name text) :
    readVariable value? name parse default = parse text := by
  rw [readVariable, text?_eq_some_iff.mpr h]

theorem readVariable_of_not_holds (h : ∀ text, ¬Holds value? name text) :
    readVariable value? name parse default = .ok default := by
  rw [readVariable]
  cases htext : value? name >>= Text.Utf8.text? with
  | some text => exact absurd (text?_eq_some_iff.mp htext) (h text)
  | none => rfl

theorem readVariable_eq_ok_iff :
    readVariable value? name parse default = .ok x ↔ Gives value? name parse default x := by
  by_cases hset : ∃ text, Holds value? name text
  · obtain ⟨text, htext⟩ := hset
    rw [readVariable_of_holds htext]
    constructor
    · exact fun h => .inl ⟨text, htext, h⟩
    · rintro (⟨text', htext', h⟩ | ⟨hunset, -⟩)
      · rwa [htext.eq htext']
      · exact absurd htext (hunset text)
  · rw [not_exists] at hset
    rw [readVariable_of_not_holds hset, Except.ok.injEq]
    constructor
    · exact fun h => .inr ⟨hset, h.symm⟩
    · rintro (⟨text, htext, -⟩ | ⟨-, h⟩)
      · exact absurd htext (hset text)
      · exact h.symm

theorem readVariable_eq_error_iff {words : α → List String} (hparse : ReadsWords parse words bad) :
    readVariable value? name parse default = .error fault ↔
      ∃ text, Holds value? name text ∧ (∀ x, parse text ≠ .ok x) ∧ fault = bad text := by
  constructor
  · intro h
    by_cases hset : ∃ text, Holds value? name text
    · obtain ⟨text, htext⟩ := hset
      rw [readVariable_of_holds htext, hparse.error_iff] at h
      exact ⟨text, htext, h.2, h.1⟩
    · rw [readVariable_of_not_holds (not_exists.mp hset)] at h
      cases h
  · rintro ⟨text, htext, hbad, rfl⟩
    rw [readVariable_of_holds htext, hparse.error_iff]
    exact ⟨rfl, hbad⟩

theorem ofEnvironment_eq (value? : String → Option (List UInt8)) :
    ofEnvironment value? = do
      let level ← readVariable value? levelVariable Level.parse ({} : Settings).level
      let schema ← readVariable value? schemaVariable Schema.parse ({} : Settings).schema
      return { ({} : Settings) with level, schema } := by
  unfold ofEnvironment readVariable
  dsimp only
  cases value? levelVariable >>= Text.Utf8.text? <;>
    cases value? schemaVariable >>= Text.Utf8.text? <;> rfl

theorem ofEnvironment_eq_iff {answer : Except Fault Settings} :
    ofEnvironment value? = answer ↔ Reads value? answer := by
  rw [ofEnvironment_eq]
  constructor
  · rintro rfl
    cases hlevel : readVariable value? levelVariable Level.parse ({} : Settings).level with
    | error fault =>
        obtain ⟨text, hset, hbad, rfl⟩ :=
          (readVariable_eq_error_iff Level.readsWords).mp hlevel
        exact .unknownLevel hset hbad
    | ok level =>
        have hlevel := readVariable_eq_ok_iff.mp hlevel
        cases hschema : readVariable value? schemaVariable Schema.parse ({} : Settings).schema with
        | error fault =>
            obtain ⟨text, hset, hbad, rfl⟩ :=
              (readVariable_eq_error_iff Schema.readsWords).mp hschema
            exact .unknownSchema hlevel hset hbad
        | ok schema => exact .ok hlevel (readVariable_eq_ok_iff.mp hschema)
  · intro h
    cases h with
    | @unknownLevel text hset hbad =>
        have hlevel : readVariable value? levelVariable Level.parse ({} : Settings).level =
            .error (.unknownLevel text) :=
          (readVariable_eq_error_iff Level.readsWords).mpr ⟨text, hset, hbad, rfl⟩
        rw [hlevel]
        rfl
    | @unknownSchema text level hlevel hset hbad =>
        have hschema : readVariable value? schemaVariable Schema.parse ({} : Settings).schema =
            .error (.unknownSchema text) :=
          (readVariable_eq_error_iff Schema.readsWords).mpr ⟨text, hset, hbad, rfl⟩
        rw [readVariable_eq_ok_iff.mpr hlevel, hschema]
        rfl
    | ok hlevel hschema =>
        rw [readVariable_eq_ok_iff.mpr hlevel, readVariable_eq_ok_iff.mpr hschema]
        rfl

/-- A level or a schema is read from the texts that name one of its words between white
space, in any case, and every other text is refused as it stands.  From the environment the
level is read first, then the schema; a variable that is unset or not UTF-8 leaves its
default. -/
theorem settings_are_read_by_their_words :
    (∀ text : String,
      (Level.parse text = .ok .full ↔
        ∃ word ∈ ["1", "true", "on", "full"], Names text word) ∧
      (Level.parse text = .ok .off ↔
        ∃ word ∈ ["0", "false", "off", "none"], Names text word) ∧
      (∀ fault, Level.parse text = .error fault ↔ fault = .unknownLevel text ∧
        ∀ word ∈ ["1", "true", "on", "full", "0", "false", "off", "none"], ¬Names text word) ∧
      (Schema.parse text = .ok .modern ↔ ∃ word ∈ ["modern"], Names text word) ∧
      (Schema.parse text = .ok .legacy ↔ ∃ word ∈ ["legacy", "nvvm"], Names text word) ∧
      ∀ fault, Schema.parse text = .error fault ↔ fault = .unknownSchema text ∧
        ∀ word ∈ ["modern", "legacy", "nvvm"], ¬Names text word) ∧
    ∀ (value? : String → Option (List UInt8)) (answer : Except Fault Settings),
      ofEnvironment value? = answer ↔ Reads value? answer := by
  refine ⟨fun text => ⟨Level.readsWords.ok_iff, Level.readsWords.ok_iff, fun fault => ?_,
    Schema.readsWords.ok_iff, Schema.readsWords.ok_iff, fun fault => ?_⟩,
    fun value? answer => ofEnvironment_eq_iff⟩
  · rw [Level.readsWords.refuses_iff, Level.forall_words_iff]
    rfl
  · rw [Schema.readsWords.refuses_iff, Schema.forall_words_iff]
    rfl

/-- White space inside a word is kept, and a zero-width space is none. -/
example : Level.parse " \u3000FuLl\t" = .ok .full ∧
    Level.parse "o n" = .error (.unknownLevel "o n") ∧
    Schema.parse "NVVM\u200B" = .error (.unknownSchema "NVVM\u200B") := by
  decide +kernel

end Settings

end DebugMetadata

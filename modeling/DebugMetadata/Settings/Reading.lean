import DebugMetadata.Fault
import DebugMetadata.Settings.Basic
import DebugMetadata.Text.Blank
import DebugMetadata.Text.Utf8

/-!
# Settings read from text

A setting is read from its word: the text without white space at its ends and
with ASCII letters in lower case.  A text whose word names nothing is refused
with the text itself.
-/

namespace DebugMetadata

open Text (settingWord)

def Level.ofWord? (word : String) : Option Level :=
  if word ∈ ["0", "false", "off", "none"] then some .off
  else if word ∈ ["1", "true", "on", "full"] then some .full
  else none

def Level.parse (text : String) : Except Fault Level :=
  match Level.ofWord? (settingWord text) with
  | some level => .ok level
  | none => .error (.unknownLevel text)

def Schema.ofWord? (word : String) : Option Schema :=
  if word = "modern" then some .modern
  else if word ∈ ["legacy", "nvvm"] then some .legacy
  else none

def Schema.parse (text : String) : Except Fault Schema :=
  match Schema.ofWord? (settingWord text) with
  | some schema => .ok schema
  | none => .error (.unknownSchema text)

namespace Settings

def levelVariable : String := "ORI_DEBUGINFO"

def schemaVariable : String := "ORI_DEBUGINFO_SCHEMA"

/-- Reads the level and then the schema from the environment, whose values are
bytes.  A variable that is unset or not UTF-8 leaves its default. -/
def ofEnvironment (value? : String → Option (List UInt8)) : Except Fault Settings := do
  let text? (name : String) := value? name >>= Text.Utf8.text?
  let level ← match text? levelVariable with
    | some text => Level.parse text
    | none => .ok .off
  let schema ← match text? schemaVariable with
    | some text => Schema.parse text
    | none => .ok .modern
  return { level, schema }

end Settings

end DebugMetadata

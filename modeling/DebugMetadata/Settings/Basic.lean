/-!
# Settings

What debug info is written and in which form.
-/

namespace DebugMetadata

/-- How much debug info is written. -/
inductive Level where
  | off
  | full
  deriving DecidableEq, Repr

def Level.isEnabled : Level → Bool
  | .off => false
  | .full => true

def Level.name : Level → String
  | .off => "none"
  | .full => "full"

/-- The form of metadata that the consumer understands. -/
inductive Schema where
  | modern
  /-- Flat tuples with numeric tags, for consumers that predate typed nodes. -/
  | legacy
  deriving DecidableEq, Repr

def Schema.name : Schema → String
  | .modern => "modern"
  | .legacy => "legacy"

/-- The schema for a target triple: the NVPTX family takes tagged tuples. -/
def Schema.forTarget (target : String) : Schema :=
  if "nvptx".toList.isPrefixOf target.toList then .legacy else .modern

/-- The source language recorded in a compile unit. -/
inductive Language where
  | c
  | c99
  | python
  deriving DecidableEq, Repr

def Language.code : Language → Int
  | .c => 0x02
  | .c99 => 0x0C
  | .python => 0x14

def Language.token : Language → String
  | .c => "DW_LANG_C"
  | .c99 => "DW_LANG_C99"
  | .python => "DW_LANG_Python"

def defaultProducer : String := "Ori Compiler"

/-- What debug info is written for a module. -/
structure Settings where
  level : Level := .off
  schema : Schema := .modern
  language : Language := .c
  /-- The text that names the producer in the compile unit. -/
  producer : String := defaultProducer
  /-- The value recorded in every `isOptimized` field. -/
  optimized : Bool := true
  deriving DecidableEq, Repr

namespace Settings

def development : Settings := { level := .full }

/-- Settings of a level with the schema that a target takes. -/
def forTarget (level : Level) (target : String) : Settings :=
  { level, schema := Schema.forTarget target }

/-- The schema that debug info is written in, if any is written. -/
def activeSchema (s : Settings) : Option Schema :=
  if s.level.isEnabled then some s.schema else none

end Settings

end DebugMetadata

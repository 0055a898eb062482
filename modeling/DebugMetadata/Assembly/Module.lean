import DebugMetadata.Assembly.Function

/-!
# Modules in assembly text

A module is written as a header and paragraphs with an empty line before each: a
paragraph for every function, one for the named lists and one for the
definitions.  A paragraph without lines is left out.
-/

namespace DebugMetadata

namespace Assembly

def moduleHeader (m : Module) : List String :=
  ("; ModuleID = '" ++ m.name ++ "'") ::
    (m.sourceFilename.map fun name =>
      "source_filename = " ++ Text.Quoted.literal name).toList

def paragraphs? (m : Module) : Option (List (List String)) := do
  let functions ← m.functions.toList.mapM (function? m)
  let definitions ← definitions? m
  return functions ++ [namedLists m.graph, definitions]

/-- A paragraph after its empty line, or nothing if it has no lines. -/
def setOff (paragraph : List String) : List String :=
  if paragraph.isEmpty then [] else "" :: paragraph

def lines? (m : Module) : Option (List String) := do
  let paragraphs ← paragraphs? m
  return moduleHeader m ++ paragraphs.flatMap setOff

end Assembly

/-- The assembly text of a module, each line with its end.  Fails if what it has
to look up does not exist. -/
def Module.assembly? (m : Module) : Option String :=
  (Assembly.lines? m).map fun lines => String.join (lines.map (· ++ "\n"))

end DebugMetadata

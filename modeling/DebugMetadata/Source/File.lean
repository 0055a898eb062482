import DebugMetadata.Fault
import DebugMetadata.Source.Path
import DebugMetadata.Text.Utf8

/-!
# Source files

Debug info records a source file as the text of its directory and of its name.
Both are read leniently from the bytes of the lexically normal absolute path.
-/

namespace DebugMetadata

/-- A source file as debug info records it. -/
structure SourceFile where
  /-- The absolute path of the directory. -/
  directory : String
  /-- The name within the directory. -/
  filename : String
  deriving DecidableEq, Repr

/-- The file of a path, which is made absolute, normalized and split. -/
def SourceFile.ofPath (workingDirectory path : List UInt8) : Except Fault SourceFile :=
  if path = [] then .error (.invalidSourcePath (Text.Utf8.text path) .empty)
  else
    let normal := Source.normalize (Source.absolute workingDirectory path)
    match Source.fileName? normal with
    | none => .error (.invalidSourcePath (Text.Utf8.text path) .noFileName)
    | some name =>
      .ok
        { directory := ((Source.parent? normal).map Text.Utf8.text).getD ""
          filename := Text.Utf8.text name }

end DebugMetadata

/-!
# Lexical paths

A path is a sequence of bytes.  Its meaning is worked out on the bytes alone: the
file system is never asked, so a segment that is a link is not followed.

Paths are read by their components and grow and shrink by one of them at a time.
-/

namespace DebugMetadata.Source

def separator : UInt8 := 0x2F

def hereSegment : List UInt8 := [0x2E]

def parentSegment : List UInt8 := [0x2E, 0x2E]

def isAbsolute (path : List UInt8) : Bool :=
  path.head? == some separator

/-! ## Components -/

/-- A component of a path. -/
inductive Component where
  | root
  /-- A single dot, which is a component only where a path begins with it. -/
  | here
  | parent
  | name (bytes : List UInt8)
  deriving DecidableEq, Repr

namespace Component

def ofSegment (segment : List UInt8) : Component :=
  if segment = parentSegment then .parent else .name segment

def bytes : Component → List UInt8
  | .root => [separator]
  | .here => hereSegment
  | .parent => parentSegment
  | .name bytes => bytes

end Component

/-- Whether a segment moves: it is neither empty nor a single dot. -/
def moves (segment : List UInt8) : Bool := segment != [] && segment != hereSegment

/-- The segments of a path that move. -/
def segments (path : List UInt8) : List (List UInt8) :=
  (path.splitOn separator).filter moves

/-- The root or the single dot with which a path begins. -/
def anchor? (path : List UInt8) : Option Component :=
  if isAbsolute path then some .root
  else if (path.splitOn separator).head? = some hereSegment then some .here
  else none

/-- The bytes of a path after the one with which it is anchored. -/
def body (path : List UInt8) : List UInt8 :=
  match anchor? path with
  | some _ => path.tail
  | none => path

/-- The components of a path.  Separators that are repeated or at the end make none. -/
def components (path : List UInt8) : List Component :=
  (anchor? path).toList ++ (segments (body path)).map .ofSegment

/-- The name at the end of a path. -/
def fileName? (path : List UInt8) : Option (List UInt8) :=
  match (components path).getLast? with
  | some (.name bytes) => some bytes
  | _ => none

/-- The segments up to the last one that moves. -/
def trimmed (segments : List (List UInt8)) : List (List UInt8) :=
  (segments.reverse.dropWhile fun segment => !moves segment).reverse

/-- The path without its last component.  The root has no parent. -/
def parent? (path : List UInt8) : Option (List UInt8) :=
  match trimmed ((body path).splitOn separator), anchor? path with
  | [], some .here => some []
  | [], _ => none
  | segments, anchor =>
    some ((anchor.map Component.bytes).getD [] ++
      [separator].intercalate (trimmed segments.dropLast))

/-! ## Buffers -/

/-- A path with another one after it.  A separator stands between them if there is none
yet, and an absolute path takes the place of what is there. -/
def push (buffer path : List UInt8) : List UInt8 :=
  if isAbsolute path then path
  else if buffer = [] ∨ buffer.getLast? = some separator then buffer ++ path
  else buffer ++ separator :: path

/-- A path without its last component, if it has a parent. -/
def pop (buffer : List UInt8) : List UInt8 := (parent? buffer).getD buffer

/-! ## Passes -/

/-- Where an absolute path starts: two separators at the beginning are kept, and more
than two are one. -/
def rootOf (path : List UInt8) : List UInt8 :=
  if [separator, separator].isPrefixOf path &&
    !([separator, separator, separator].isPrefixOf path) then [separator, separator]
  else [separator]

/-- The path from the root, with a relative path taken from the working directory, and
the working directory from the root.  A separator at the end is kept. -/
def absolute (workingDirectory path : List UInt8) : List UInt8 :=
  let start := if isAbsolute path then rootOf path else push [separator] workingDirectory
  let moving := (components path).filter fun c => c != .root && c != .here
  let joined := moving.foldl (fun buffer c => push buffer c.bytes) start
  if path.getLast? = some separator then push joined [] else joined

/-- A buffer after one more component.  The parent of the root is the root. -/
def follow (buffer : List UInt8) : Component → List UInt8
  | .here => buffer
  | .parent => pop buffer
  | component => push buffer component.bytes

/-- The path with its single dots left out and its parents followed. -/
def normalize (path : List UInt8) : List UInt8 := (components path).foldl follow []

end DebugMetadata.Source

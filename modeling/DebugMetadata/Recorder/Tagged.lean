import DebugMetadata.Event
import DebugMetadata.Module.Cursor
import DebugMetadata.Recorder.Flag

/-!
# Debug info in tagged tuples

A tagged recorder writes tuples whose operands have fixed places and whose first
operand, where there is one, is a numeric tag.  The compile unit holds the handle
of a growable list, to which the subprograms are pushed as they are registered.
A location travels on a marker, which is a call of an assembly comment that has
the location attached.  A line that repeats the recorder's last one gets no new
marker.
-/

namespace DebugMetadata

/-- A recorder that writes tagged tuples. -/
structure TaggedRecorder where
  source : SourceFile
  optimized : Bool
  file : NodeId
  unit : NodeId
  /-- The list of subprograms, which the compile unit refers to. -/
  subprograms : ListId
  /-- The subprogram that new locations belong to. -/
  active : Option NodeId := none
  /-- The line of the last marker. -/
  lastLine : Option Nat := none
  deriving DecidableEq, Repr

namespace TaggedRecorder

/-- The named list of compile units.  It is not the list that typed units are
found in, so a consumer of those does not meet these. -/
def unitListName : String := "ori.llvm.dbg.cu"

def locationKey : String := "ori.dbg"

def debugInfoVersion : ModuleFlag := ⟨.warning, ModuleFlag.debugInfoVersionKey, 1⟩

/-- The tag of a DWARF entry, with the version of the tuple layout above it. -/
def tag (entry : Int) : Int := 12 * 65536 + entry

def unitTag : Int := tag 0x11

def typeTag : Int := tag 0x15

def fileTag : Int := tag 0x29

def subprogramTag : Int := tag 0x2E

/-- The place of the list of subprograms in a compile unit. -/
def unitSubprogramsPlace : Nat := 9

def subprogramFunctionPlace : Nat := 15

/-! ## Tuples -/

def pairOperands (source : SourceFile) : List Operand :=
  [.str source.filename, .str source.directory]

def fileOperands (pair : NodeId) : List Operand := [.i32 fileTag, .node pair]

/-- The tuple that stands for an empty collection. -/
def emptyOperands : List Operand := [.i32 0]

/-- The compile unit of a pair: tag, file, language, producer, optimization,
flags, runtime version, enumerations, retained types, subprograms, globals,
imported entities, split file. -/
def unitOperands (settings : Settings) (pair empty : NodeId) (subprograms : ListId) :
    List Operand :=
  [.i32 unitTag, .node pair, .i32 settings.language.code, .str settings.producer,
    .i1 settings.optimized, .str "", .i32 0, .node empty, .node empty,
    .list subprograms, .node empty, .node empty, .str ""]

/-- The tuple of types in the type of every subprogram. -/
def typesOperands : List Operand := [.null]

/-- The type of every subprogram: tag, file, context, name, line, size, offset,
alignment, flags, base, types, runtime language, holder, template, identifier. -/
def typeOperands (types : NodeId) : List Operand :=
  [.i32 typeTag, .i32 0, .null, .str "", .i32 0, .i64 0, .i64 0, .i64 0, .i32 0,
    .null, .node types, .i32 0, .null, .null, .null]

/-- A subprogram: tag, pair, context, name, display name, linkage name, line,
type, local, definition, virtuality, virtual index, base, flags, optimization,
function, template, declaration, variables, line of the scope. -/
def subprogramOperands (r : TaggedRecorder) (pair context : NodeId)
    (name linkageName : String) (line : Nat) (type locals : NodeId)
    (function : Option FunctionId) : List Operand :=
  [.i32 subprogramTag, .node pair, .node context, .str name, .str name,
    .str linkageName, .i32 line, .node type, .i1 false, .i1 true, .i32 0, .i32 0,
    .null, .i32 0, .i1 r.optimized, function.elim .null .function, .null, .null,
    .node locals, .i32 line]

/-- The location of a line in a subprogram: line, column, scope, origin. -/
def locationOperands (line : Nat) (scope : NodeId) : List Operand :=
  [.i32 line, .i32 0, .node scope, .null]

theorem getElem?_subprogramOperands (r : TaggedRecorder) (pair context : NodeId)
    (name linkageName : String) (line : Nat) (type locals : NodeId)
    (function : Option FunctionId) :
    (r.subprogramOperands pair context name linkageName line type locals
      function)[subprogramFunctionPlace]? = some (function.elim .null .function) := rfl

def marker (line : Nat) : Operation :=
  .call (.asm ⟨.unit, "// dbg " ++ line.repr, "", true⟩) []

/-! ## Calls -/

def addPair (source : SourceFile) (g : Graph) : NodeId × Graph :=
  g.addTuple (pairOperands source)

/-- Adds the file of a source, which refers to the pair. -/
def addFile (source : SourceFile) (g : Graph) : NodeId × Graph :=
  let (pair, g) := addPair source g
  g.addTuple (fileOperands pair)

/-- Adds the type of every subprogram. -/
def addType (g : Graph) : NodeId × Graph :=
  let (types, g) := g.addTuple typesOperands
  g.addTuple (typeOperands types)

def create (settings : Settings) (source : SourceFile) (g : Graph) :
    TaggedRecorder × Graph :=
  let (file, g) := addFile source g
  let (subprograms, g) := g.newList
  let (pair, g) := addPair source g
  let (empty, g) := g.addTuple emptyOperands
  let (unit, g) := g.addTuple (unitOperands settings pair empty subprograms)
  ({ source, optimized := settings.optimized, file, unit, subprograms }, g)

/-- Adds a subprogram, pushes it to the list and makes it the active one.  It
refers to the module's function of its linkage name, if there is one.  What it
shares with other subprograms is asked for anew. -/
def addSubprogram (r : TaggedRecorder) (name linkageName : String) (line : Nat)
    (m : Module) : NodeId × TaggedRecorder × Module :=
  let function := m.findFunction? linkageName
  let (type, g) := addType m.graph
  let (locals, g) := g.addTuple emptyOperands
  let (context, g) := addFile r.source g
  let (pair, g) := addPair r.source g
  let (id, g) := g.addTuple
    (r.subprogramOperands pair context name linkageName line type locals function)
  (id, { r with active := some id }, { m with graph := g.pushToList r.subprograms id })

/-- Adds the location of a line in the active subprogram. -/
def addLocation (r : TaggedRecorder) (line : Nat) (g : Graph) :
    Except Fault (NodeId × Graph) :=
  match r.active with
  | none => .error .noSubprogram
  | some scope => .ok (g.addTuple (locationOperands line scope))

def markSubprogram (r : TaggedRecorder) (m : Module) (function : FunctionId)
    (name : String) (line : Nat) : Except Fault (TaggedRecorder × Module × Event) :=
  match m.function? function with
  | none => .error .dangling
  | some f =>
    let (_, r, m) := r.addSubprogram name f.name line m
    .ok (r, m, .markedSubprogram name f.name line)

/-- Emits the marker of a line at a cursor, unless the line repeats the last
one. -/
def markLocation (r : TaggedRecorder) (m : Module) (c : Cursor) (line : Nat) :
    Except Fault (TaggedRecorder × Module × Event) :=
  if r.lastLine = some line then .ok (r, m, .skippedLine line)
  else do
    let (location, graph) ← r.addLocation line m.graph
    match { m with graph }.emit? c (marker line) with
    | none => .error .dangling
    | some (id, m) =>
      .ok ({ r with lastLine := some line },
        m.attachToInstruction id locationKey location, .markedLocation line)

def finalize (r : TaggedRecorder) (m : Module) : Module × Event :=
  let g := m.graph.addNamed unitListName r.unit
  let (_, g) := g.addFlag debugInfoVersion
  ({ m with graph := g },
    .finalized .legacy ((g.list? r.subprograms).elim 0 Array.size))

end TaggedRecorder

end DebugMetadata

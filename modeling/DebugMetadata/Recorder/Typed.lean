import DebugMetadata.Event
import DebugMetadata.Module.Cursor
import DebugMetadata.Recorder.Flag

/-!
# Debug info in typed nodes

A typed recorder writes a file node and a distinct compile unit, a distinct
subprogram for every function it is told of, and a shared location for every
line of a subprogram.  A subprogram refers to its unit, and the unit is found by
name once the recorder is finalized.  Locations are given to instructions by the
cursor.
-/

namespace DebugMetadata

/-- A recorder that writes typed nodes. -/
structure TypedRecorder where
  source : SourceFile
  optimized : Bool
  file : NodeId
  unit : NodeId
  subprograms : Array NodeId := #[]
  /-- The subprogram that new locations belong to. -/
  active : Option NodeId := none
  deriving DecidableEq, Repr

namespace TypedRecorder

def unitListName : String := "llvm.dbg.cu"

def subprogramKey : String := "dbg"

/-- The column of every location.  Only lines are recorded. -/
def column : Int := 1

def dwarfVersion : ModuleFlag := ⟨.warning, ModuleFlag.dwarfVersionKey, 4⟩

def debugInfoVersion : ModuleFlag := ⟨.warning, ModuleFlag.debugInfoVersionKey, 3⟩

/-! ## Nodes -/

def fileNode (source : SourceFile) : DebugNode :=
  ⟨.file, [("directory", .str source.directory), ("filename", .str source.filename)]⟩

/-- The compile unit of a file.  Its emission kind is that of full debug info. -/
def unitNode (settings : Settings) (file : NodeId) : DebugNode :=
  ⟨.compileUnit,
    [("language", .token settings.language.token), ("file", .node file),
      ("producer", .str settings.producer), ("runtimeVersion", .int 0),
      ("isOptimized", .bool settings.optimized), ("emissionKind", .int 1)]⟩

/-- The type of every subprogram, with a tuple of its types. -/
def typeNode (types : NodeId) : DebugNode :=
  ⟨.subroutineType, [("types", .node types)]⟩

/-- A subprogram with its type and a tuple of its variables. -/
def subprogramNode (r : TypedRecorder) (name linkageName : String) (line : Nat)
    (type locals : NodeId) : DebugNode :=
  ⟨.subprogram,
    [("name", .str name), ("linkageName", .str linkageName), ("scope", .node r.file),
      ("file", .node r.file), ("line", .int line), ("type", .node type),
      ("isLocal", .bool false), ("isDefinition", .bool true), ("scopeLine", .int line),
      ("isOptimized", .bool r.optimized), ("variables", .node locals),
      ("unit", .node r.unit)]⟩

def locationNode (line : Nat) (scope : NodeId) : DebugNode :=
  ⟨.location, [("line", .int line), ("column", .int column), ("scope", .node scope)]⟩

/-! ## Calls -/

/-- Adds the type of every subprogram. -/
def addType (g : Graph) : NodeId × Graph :=
  let (types, g) := g.addTuple []
  g.addDebug (typeNode types) false

def create (settings : Settings) (source : SourceFile) (g : Graph) : TypedRecorder × Graph :=
  let (file, g) := g.addDebug (fileNode source) false
  let (unit, g) := g.addDebug (unitNode settings file) true
  ({ source, optimized := settings.optimized, file, unit }, g)

/-- Adds a subprogram and makes it the active one.  Types and variables are not
recorded, so the empty tuple stands for both. -/
def addSubprogram (r : TypedRecorder) (name linkageName : String) (line : Nat)
    (g : Graph) : NodeId × TypedRecorder × Graph :=
  let (type, g) := addType g
  let (locals, g) := g.addTuple []
  let (id, g) := g.addDebug (r.subprogramNode name linkageName line type locals) true
  (id, { r with subprograms := r.subprograms.push id, active := some id }, g)

/-- Adds the location of a line in the active subprogram. -/
def addLocation (r : TypedRecorder) (line : Nat) (g : Graph) :
    Except Fault (NodeId × Graph) :=
  match r.active with
  | none => .error .noSubprogram
  | some scope => .ok (g.addDebug (locationNode line scope) false)

/-- Registers a function as a subprogram and attaches the subprogram to it. -/
def markSubprogram (r : TypedRecorder) (m : Module) (function : FunctionId)
    (name : String) (line : Nat) : Except Fault (TypedRecorder × Module × Event) :=
  match m.function? function with
  | none => .error .dangling
  | some f =>
    let (id, r, graph) := r.addSubprogram name f.name line m.graph
    .ok (r, { m with graph }.attachToFunction function subprogramKey id,
      .markedSubprogram name f.name line)

/-- Gives the location of a line to what a cursor emits next. -/
def markLocation (r : TypedRecorder) (m : Module) (c : Cursor) (line : Nat) :
    Except Fault (Cursor × Module × Event) := do
  let (id, graph) ← r.addLocation line m.graph
  return (c.locate (some id), { m with graph }, .markedLocation line)

def finalize (r : TypedRecorder) (m : Module) : Module × Event :=
  let g := m.graph.addNamed unitListName r.unit
  let (_, g) := g.addFlag dwarfVersion
  let (_, g) := g.addFlag debugInfoVersion
  ({ m with graph := g }, .finalized .modern r.subprograms.size)

end TypedRecorder

end DebugMetadata

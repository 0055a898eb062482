import DebugMetadata.Graph.Basic

/-!
# Module flags

A module flag is a tuple in the named list of flags: how it is merged with the
flags of other modules, its key and its value.  The graph shares equal tuples, so
a flag is registered exactly if the list holds the handle of its tuple.
-/

namespace DebugMetadata

/-- How a flag is merged with a flag of the same key in another module. -/
inductive FlagBehavior where
  | error
  | warning
  | require
  | override
  | append
  | appendUnique
  deriving DecidableEq, Repr

def FlagBehavior.code : FlagBehavior → Int
  | .error => 1
  | .warning => 2
  | .require => 3
  | .override => 4
  | .append => 5
  | .appendUnique => 6

/-- A module flag. -/
structure ModuleFlag where
  behavior : FlagBehavior
  key : String
  value : Int
  deriving DecidableEq, Repr

namespace ModuleFlag

def listName : String := "llvm.module.flags"

/-- The key of the flag that tells the DWARF version. -/
def dwarfVersionKey : String := "Dwarf Version"

/-- The key of the flag that tells the version of the debug metadata. -/
def debugInfoVersionKey : String := "Debug Info Version"

def operands (flag : ModuleFlag) : List Operand :=
  [.i32 flag.behavior.code, .str flag.key, .i32 flag.value]

end ModuleFlag

/-- Registers a flag.  Returns whether it was added: a flag that is registered
already is not added again. -/
def Graph.addFlag (g : Graph) (flag : ModuleFlag) : Bool × Graph :=
  let (id, g) := g.addTuple flag.operands
  if (g.namedNodes ModuleFlag.listName).contains id then (false, g)
  else (true, g.addNamed ModuleFlag.listName id)

end DebugMetadata

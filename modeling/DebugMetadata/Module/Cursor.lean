import DebugMetadata.Module.Basic

/-!
# Cursors

A cursor stands at the end of a block and emits instructions there.  Each of
them takes the location the cursor has at that moment.
-/

namespace DebugMetadata

/-- A place to emit instructions at. -/
structure Cursor where
  block : BlockId
  location : Option NodeId := none
  deriving DecidableEq, Repr

namespace Cursor

/-- Moves a cursor to the end of a block.  It keeps its location. -/
def moveTo (c : Cursor) (block : BlockId) : Cursor := { c with block }

/-- Sets or unsets the location of what is emitted next. -/
def locate (c : Cursor) (location : Option NodeId) : Cursor := { c with location }

def function? (c : Cursor) (m : Module) : Option FunctionId :=
  (m.block? c.block).map (·.function)

end Cursor

def Module.emit? (m : Module) (c : Cursor) (operation : Operation) :
    Option (InstrId × Module) :=
  m.appendInstruction? { operation, block := c.block, location := c.location }

end DebugMetadata

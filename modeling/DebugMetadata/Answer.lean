import DebugMetadata.Handle

/-!
# Answers

What a command returns when it succeeds.
-/

namespace DebugMetadata

/-- What a command returns. -/
inductive Answer where
  | done
  | function (id : FunctionId)
  | block (id : BlockId)
  | instr (id : InstrId)
  | node (id : NodeId)
  | list (id : ListId)
  | cursor (number : Nat)
  | recorder (number : Nat)
  | added (value : Bool)
  /-- The location a cursor now gives to what it emits. -/
  | location (id : Option NodeId)
  deriving DecidableEq, Repr

end DebugMetadata

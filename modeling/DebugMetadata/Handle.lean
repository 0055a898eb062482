/-!
# Handles

Everything a module owns lives in an arena and is referred to by its index
there.  Each arena has a handle type of its own, so that an index of one cannot
be used in another.  A handle is only a number: it may name an entry that does
not exist, and then it is dangling.

The modelled program makes a handle by casting the length of the arena to 32
bits.  Indices here are unbounded, and stand for those of arenas of fewer than
2^32 entries, in which the cast loses nothing.
-/

namespace DebugMetadata

/-- The index of a function in its module. -/
structure FunctionId where
  index : Nat
  deriving DecidableEq, Hashable, Repr

/-- The index of a block in its module. -/
structure BlockId where
  index : Nat
  deriving DecidableEq, Hashable, Repr

/-- The index of an instruction in its module. -/
structure InstrId where
  index : Nat
  deriving DecidableEq, Hashable, Repr

/-- The index of a node in its metadata graph. -/
structure NodeId where
  index : Nat
  deriving DecidableEq, Hashable, Repr

/-- The index of a growable list in its metadata graph. -/
structure ListId where
  index : Nat
  deriving DecidableEq, Hashable, Repr

end DebugMetadata

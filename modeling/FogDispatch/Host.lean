/-!
# Surroundings

What a run needs from outside, in any monad that can give it: files by their paths and a clock.
-/

namespace FogDispatch

/-- What a run needs of its surroundings: files and a clock of its own. -/
structure Host (m : Type → Type) where
  read : String → m (Option ByteArray)
  /-- Makes a directory with all directories on the way; tells whether it is there now. -/
  createDirectory : String → m Bool
  /-- Writes a file; tells whether it was written. -/
  write : String → String → m Bool
  /-- The nanoseconds of real time since some fixed moment. -/
  nanoseconds : m Nat

end FogDispatch

/-!
# Faults of paths

What keeps a path from being read, written or created, in the words of the system.
-/

set_option autoImplicit false
set_option relaxedAutoImplicit false

namespace LogSequencing

inductive PathFault where
  /-- Nothing stands there. -/
  | missing
  /-- A file stands where a directory is to be created. -/
  | occupied
  /-- A file stands on the way. -/
  | notDirectory
  /-- A directory stands where a file is wanted. -/
  | isDirectory
deriving DecidableEq, Repr

def PathFault.reason : PathFault → String
  | missing => "No such file or directory (os error 2)"
  | occupied => "File exists (os error 17)"
  | notDirectory => "Not a directory (os error 20)"
  | isDirectory => "Is a directory (os error 21)"

end LogSequencing

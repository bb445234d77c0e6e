/-
What can go wrong.

Most faults in files only cost the file: it is passed over, and something reserved stands in for
it.  The failures listed here are those that whoever uses the library gets to see.

* `Failure` — the failures;
* `Failure.message` — their wording.
-/
import VoxelBake.Atlas.Basic
import VoxelBake.Blockstate.Document
import VoxelBake.Handoff
import VoxelBake.Pack.Files

set_option relaxedAutoImplicit false
set_option autoImplicit false

namespace VoxelBake

/-- What went wrong. -/
inductive Failure
  /-- A document cannot be read. -/
  | document
  /-- A picture cannot be read. -/
  | picture
  /-- A file is not there. -/
  | notFound (path : String)
  /-- A blockstate file says nothing that could be drawn. -/
  | malformed (path : String) (fault : BlockstateFault)
  /-- A pack has no assets. -/
  | pack (fault : NoAssets)
  /-- An atlas has not what was asked of it. -/
  | atlas (fault : AtlasFault)
  /-- An upload did not happen. -/
  | upload (fault : HandoffFault)
  /-- Nothing was built yet. -/
  | notLoaded
deriving DecidableEq

/-- The wording of a failure. -/
def Failure.message : Failure → String
  | document => "JSON parse error"
  | picture => "Image error"
  | notFound path => "Resource not found: " ++ path
  | malformed path fault => "Malformed document " ++ path ++ ": " ++ fault.message
  | pack fault => "Invalid resource pack: " ++ fault.message
  | atlas fault => "Atlas building error: " ++ fault.message
  | upload fault => "Upload error: " ++ fault.message
  | notLoaded => "Resources are not loaded"

end VoxelBake

/-
Paths of files.

A path is a text whose slashes separate names.  One place may be written in several ways: a slash
may be doubled or stand at the end, and a single dot stays where it is.  Two paths are the same
when they have the same steps.

* `Path.steps` — what tells paths apart;
* `Path.inside` — the names that lead to a path within a directory.
-/
import VoxelBake.Text.Blank

set_option relaxedAutoImplicit false
set_option autoImplicit false

namespace VoxelBake.Path

/-- What stands between the slashes of a path. -/
def pieces (path : String) : List String := (Text.pieces '/' path.toList).map String.ofList

/-- Whether a piece stays where it is. -/
def stays (piece : String) : Bool := piece = "" || piece = "."

/-- The steps of a path.  Pieces that stay do not count, except the first one: an empty one starts
from the root, and a dot from where one is. -/
def steps (path : String) : List String :=
  match pieces path with
  | [] | [""] => []
  | first :: rest => first :: rest.filter (!stays ·)

/-- The names that lead to a path from the directory in which it is taken: two dots lead back. -/
def inside (path : String) : List String :=
  (pieces path).foldl
    (fun names piece =>
      if stays piece then names
      else if piece = ".." then names.dropLast
      else names ++ [piece]) []

end VoxelBake.Path

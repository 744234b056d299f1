/-! # Paths

Absolute paths in normal form, by the names in them alone: no file is looked at. -/

namespace Termbook

namespace Path

/-- How many slashes an absolute path keeps at its front: one, or the two that are there if they are
exactly two. -/
def rootSlashes (path : String) : Nat :=
  match path.toList with
  | '/' :: '/' :: '/' :: _ => 1
  | '/' :: '/' :: _ => 2
  | '/' :: _ => 1
  | _ => 0

/-- Follow one more component from a place, given by its components, last one first. The root is its
own parent; above a relative place the way up is kept. -/
def follow (rooted : Bool) (above : List String) (component : String) : List String :=
  if component = "" ∨ component = "." then above
  else if component = ".." then
    match above with
    | [] => if rooted then [] else [".."]
    | ".." :: _ => ".." :: above
    | _ :: parent => parent
  else component :: above

/-- The normal form of a path: no empty component, no `.`, and `..` only where nothing is known of
what lies above. -/
def normalize (path : String) : String :=
  let slashes := rootSlashes path
  let components := ((path.splitOn "/").foldl (follow (0 < slashes)) []).reverse
  let normal := String.ofList (List.replicate slashes '/') ++ "/".intercalate components
  if normal = "" then "." else normal

/-- A path as seen from a directory: itself if it is absolute. -/
def join (directory path : String) : String :=
  if 0 < rootSlashes path ∨ directory = "" then path
  else if directory.toList.getLast? = some '/' then directory ++ path
  else directory ++ "/" ++ path

/-- The absolute path in normal form for a path as seen from a directory. -/
def absolute (directory path : String) : String :=
  normalize (join directory path)

end Path

end Termbook

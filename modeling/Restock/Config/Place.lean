import Restock.Config.Codec

/-! Configurations in files.

A path leads through folders to a file, from the present folder or, if it begins
with a slash, from the outermost one. Names are separated by slashes; an empty name
and `.` stay where they are and `..` goes back, but only a folder can be left by any
of them. What a path leads to is read as a configuration if it is a file. -/
namespace Restock

/-- A file, or a folder of places by name. -/
inductive Place
  | file (content : ByteArray)
  | folder (entries : List (String × Place))

namespace Place

open Config (PathFault)

/-- Follows names from a place; `above` are the folders around it, the nearest
first. -/
def follow (above : List Place) (here : Place) : List String → Except PathFault Place
  | [] => .ok here
  | name :: names =>
    match here with
    | .file _ => .error .notFolder
    | .folder entries =>
      if name = "" ∨ name = "." then follow above here names
      else if name = ".." then follow above.tail (above.headD here) names
      else
        match entries.lookup name with
        | none => .error .notFound
        | some place => follow (here :: above) place names

/-- The place at the end of a path. -/
def locate (above : List Place) (here : Place) (path : String) : Except PathFault Place :=
  if path.isEmpty then .error .notFound
  else if path.startsWith "/" then (above.getLastD here).follow [] (path.splitOn "/")
  else here.follow above (path.splitOn "/")

/-- The content of the file at the end of a path. -/
def read (above : List Place) (here : Place) (path : String) : Except PathFault ByteArray :=
  match here.locate above path with
  | .ok (.file content) => .ok content
  | .ok (.folder _) => .error .isFolder
  | .error e => .error e

end Place

/-- The valid configuration in the file at the end of a path. -/
def Config.ofPath (above : List Place) (here : Place) (path : String) :
    Except Config.Error Config :=
  match here.read above path with
  | .ok content => ofBytes content
  | .error f => .error (.unreadable f)

end Restock

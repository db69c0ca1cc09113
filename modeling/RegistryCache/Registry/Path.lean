import RegistryCache.Text.Basic

/-! # Repository paths

A repository is named by a path of segments with slashes between them.  The catalog is browsed along
these paths, so what counts is which repositories lie below one, and under which next segment.
-/

namespace RegistryCache.Path

open Text (after? trimMark)

def trimmed (path : String) : String := String.ofList (trimMark '/' path.toList)

/-- What follows `path` and a slash in the name of a repository, if the name begins like that.  All
    of a name lies below the empty path. -/
def below? (path repository : String) : Option (List Char) :=
  if path.isEmpty then some repository.toList
  else after? (path.toList ++ ['/']) repository.toList

/-- The first segment of a text, up to a slash or to the end. -/
def firstSegment (cs : List Char) : String := String.ofList (cs.takeWhile (· ≠ '/'))

/-- The next segment of a repository below `path`; an empty one is none. -/
def nextSegment? (path repository : String) : Option String :=
  match below? path repository with
  | some rest =>
    let segment := firstSegment rest
    if segment.isEmpty then none else some segment
  | none => none

/-- A name below a path that has no slashes at its ends. -/
def child (path name : String) : String := if path.isEmpty then name else s!"{path}/{name}"

/-- Whether a repository is the subtree's root or lies below it. -/
def inSubtree (root repository : String) : Bool :=
  repository == root || (after? (root.toList ++ ['/']) repository.toList).isSome

end RegistryCache.Path

import RegistryCache.Text.Utf8
import RegistryCache.Text.Basic

/-! # Files

The configuration may name a file that holds the password.  What reading a file yields, or why it
yields nothing, is all that the rest needs to know (`Files`).  A `Directory` is a working directory
with known content; its paths are followed segment by segment.
-/

namespace RegistryCache

/-- Why a file cannot be read. -/
inductive FileFault where
  | missing
  | isDirectory
  | notDirectory
  | nameTooLong
  | nulInName
  | notText
  | other (reason : String)
  deriving DecidableEq, Repr

/-- The reason as a person reads it. -/
def FileFault.text : FileFault → String
  | .missing => "No such file or directory (os error 2)"
  | .isDirectory => "Is a directory (os error 21)"
  | .notDirectory => "Not a directory (os error 20)"
  | .nameTooLong => "File name too long (os error 36)"
  | .nulInName => "file name contained an unexpected NUL byte"
  | .notText => "stream did not contain valid UTF-8"
  | .other reason => reason

abbrev Files := String → Except FileFault (List UInt8)

/-- A file read as text. -/
def Files.text (files : Files) (path : String) : Except FileFault String :=
  match files path with
  | .error fault => .error fault
  | .ok bytes =>
    match Text.Utf8.text? bytes with
    | some text => .ok text
    | none => .error .notText

/-! ## A directory with known content -/

/-- The files below a working directory, each by the segments of its path. -/
structure Directory where
  files : List (List String × List UInt8)

namespace Directory

/-- The files of a directory by their paths. -/
def ofFiles (files : List (String × List UInt8)) : Directory :=
  ⟨files.map fun (path, bytes) => (path.splitOn "/", bytes)⟩

/-- The longest name that a file may have, in bytes. -/
def longestName : Nat := 255

/-- The longest path that may be asked for, in bytes. -/
def longestPath : Nat := 4095

/-- The content of the file at a place. -/
def file? (d : Directory) (place : List String) : Option (List UInt8) :=
  (d.files.find? (·.1 = place)).map (·.2)

/-- Whether a place is a directory: the working directory itself, or one that something lies in. -/
def holds (d : Directory) (place : List String) : Bool :=
  place.isEmpty || d.files.any fun (path, _) => place.isPrefixOf path && place != path

/-- What lies outside of the working directory: directories alone are known there. -/
def outside (segments : List String) : Except FileFault (List UInt8) :=
  .error (if segments.all (fun s => s = "" ∨ s = "." ∨ s = "..") then .isDirectory else .missing)

/-- Follows the segments of a path from a place. -/
def follow (d : Directory) (place : List String) : List String → Except FileFault (List UInt8)
  | [] =>
    match d.file? place with
    | some bytes => .ok bytes
    | none => .error (if d.holds place then .isDirectory else .missing)
  | segment :: rest =>
    if (d.file? place).isSome then .error .notDirectory
    else if !d.holds place then .error .missing
    else if segment = "" ∨ segment = "." then d.follow place rest
    else if segment = ".." then
      if place.isEmpty then outside rest else d.follow place.dropLast rest
    else if longestName < segment.utf8ByteSize then .error .nameTooLong
    else d.follow (place ++ [segment]) rest

def read (d : Directory) : Files := fun path =>
  if path.toList.contains '\x00' then .error .nulInName
  else if path.isEmpty then .error .missing
  else if longestPath < path.utf8ByteSize then .error .nameTooLong
  else match path.splitOn "/" with
    | "" :: rest => outside rest
    | segments => d.follow [] segments

end Directory

end RegistryCache

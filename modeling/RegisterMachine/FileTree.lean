/-
File trees: named files and directories below a working directory.

A path is followed name by name.  Paths that lead to the same location name the
same entry.  Outside the working directory only the directories on the way up are
known, and the empty device.
-/

import RegisterMachine.Fault

namespace RegisterMachine

inductive FileEntry where
  | file (content : ByteArray)
  | directory

/-- Of two entries at one location the later one stands. -/
structure FileTree where
  entries : List (String × FileEntry)

namespace FileTree

/-! ### Locations -/

inductive Base where
  | above (levels : Nat)
  | root
deriving DecidableEq

structure Location where
  base : Base
  names : List String
deriving DecidableEq

namespace Location

def working : Location := ⟨.above 0, []⟩

/-- The directory above a location.  The root is its own parent. -/
def parent : Location → Location
  | ⟨.above levels, []⟩ => ⟨.above (levels + 1), []⟩
  | ⟨.root, []⟩ => ⟨.root, []⟩
  | ⟨base, names⟩ => ⟨base, names.dropLast⟩

def step (location : Location) (name : String) : Location :=
  if name = "" || name = "." then location
  else if name = ".." then location.parent
  else ⟨location.base, location.names ++ [name]⟩

def origin (path : String) : Location :=
  if path.toList.head? = some '/' then ⟨.root, []⟩ else .working

def namesOf (path : String) : List String :=
  (path.toList.splitOn '/').map String.ofList

def ofPath (path : String) : Location :=
  (namesOf path).foldl step (origin path)

def trail : Location → List String → List Location
  | _, [] => []
  | location, name :: rest =>
      location.step name :: trail (location.step name) rest

end Location

/-! ### Entries -/

def nullDevice : String × FileEntry := ("/dev/null", .file .empty)

/-- A directory need not be listed when a listed path leads through it. -/
def find? (tree : FileTree) (location : Location) : Option FileEntry :=
  let entries := nullDevice :: tree.entries
  match entries.reverse.find? fun entry => Location.ofPath entry.1 == location with
  | some entry => some entry.2
  | none =>
      if entries.any fun entry =>
          ((Location.origin entry.1).trail (Location.namesOf entry.1)).contains
            location
      then some .directory
      else none

def nameLimit : Nat := 255

def pathLimit : Nat := 4096

def follow (tree : FileTree) : Location → List String → Except ReadFailure FileEntry
  | _, [] => .ok .directory
  | location, name :: rest =>
      let reached := location.step name
      if name = "" || name = "." || name = ".." then tree.follow reached rest
      else if nameLimit < name.utf8ByteSize then .error .nameTooLong
      else
        match tree.find? reached with
        | none => .error .notFound
        | some .directory => tree.follow reached rest
        | some (.file content) =>
            if rest.isEmpty then .ok (.file content)
            else .error .notDirectory

def entry (tree : FileTree) (path : String) : Except ReadFailure FileEntry :=
  if path.toList.contains '\x00' then .error .nullInName
  else if path.isEmpty then .error .notFound
  else if pathLimit ≤ path.utf8ByteSize then .error .nameTooLong
  else tree.follow (Location.origin path) (Location.namesOf path)

/-! ### Texts -/

def decode (content : ByteArray) : Except ReadFailure String :=
  match String.fromUTF8? content with
  | some text => .ok text
  | none => .error .notUtf8

def read (tree : FileTree) (path : String) : Except ReadFailure String :=
  match tree.entry path with
  | .error failure => .error failure
  | .ok .directory => .error .isDirectory
  | .ok (.file content) => decode content

end FileTree
end RegisterMachine

/-
Reading files: what can go wrong, and a folder as a plain value against
which paths can be read. A folder is a list of entries by path; paths
are walked name by name, as a file system walks them, so that the first
name that cannot be followed decides the error. What lies outside the
folder is taken to hold no files. Names and paths have a greatest length
in bytes: a longer path is refused before the walk starts, a longer name
only when the walk comes to it.
-/
namespace Mnemonic.CommandLine

/-- Why a file cannot be read as text. -/
inductive FileError where
  | absent
  | directory
  /-- The path goes on behind a name that is no directory. -/
  | notDirectory
  /-- The path, or a name on it, has more bytes than a file system
  takes. -/
  | nameTooLong
  | notText
  /-- Any other cause, in the system's words. -/
  | other (description : String)
deriving DecidableEq, Repr

def FileError.message : FileError → String
  | absent => "No such file or directory (os error 2)"
  | directory => "Is a directory (os error 21)"
  | notDirectory => "Not a directory (os error 20)"
  | nameTooLong => "File name too long (os error 36)"
  | notText => "stream did not contain valid UTF-8"
  | other d => d

/-- What a name stands for in a folder. -/
inductive Entry where
  | directory
  | file (bytes : List UInt8)
deriving DecidableEq, Repr

/-- The entries of a folder by the names that lead to them. -/
abbrev Folder := List (List String × Entry)

/-- Where a walk along a path has got to. -/
inductive Place where
  /-- A directory of the folder, by the names that lead to it. -/
  | inside (names : List String)
  /-- Somewhere above the folder. -/
  | outside
  | file (bytes : List UInt8)
deriving DecidableEq, Repr

/-- The text that is found at a place. -/
def Place.text : Place → Except FileError String
  | .file bytes =>
      match String.fromUTF8? (ByteArray.mk bytes.toArray) with
      | some text => .ok text
      | none => .error .notText
  | .inside _ | .outside => .error .directory

/-- The most bytes that a name on a path can have. -/
def longestName : Nat := 255

/-- The most bytes that a path can have: with the zero byte that ends
it, it fills 4096. -/
def longestPath : Nat := 4095

namespace Folder

/-- The names of a path, with an empty name where two slashes meet or
the path ends in one. -/
def names (path : String) : List String :=
  (cut path.toList).map String.ofList
where
  /-- Cuts a text at every slash. -/
  cut : List Char → List (List Char)
    | [] => [[]]
    | '/' :: cs => [] :: cut cs
    | c :: cs =>
        match cut cs with
        | [] => [[c]]
        | w :: ws => (c :: w) :: ws

/-- What a name other than `.` and `..` leads to from a directory. -/
def child (folder : Folder) (here : List String) (name : String) :
    Except FileError Place :=
  let next := here ++ [name]
  match folder.lookup next with
  | some (.file bytes) => .ok (.file bytes)
  | some .directory => .ok (.inside next)
  | none =>
      -- A directory need not be an entry itself if it leads to one.
      if folder.any fun e => next.isPrefixOf e.1 then .ok (.inside next) else .error .absent

/-- Goes on from a place by one name. A name is measured only where it
is looked up, so one that follows a file is refused for the file,
however long it is. -/
def enter (folder : Folder) (place : Place) (name : String) :
    Except FileError Place :=
  match place with
  | .file _ => .error .notDirectory
  | .outside =>
      if name == "" || name == "." || name == ".." then .ok .outside
      else if longestName < name.utf8ByteSize then .error .nameTooLong
      else .error .absent
  | .inside here =>
      if name == "" || name == "." then .ok place
      else if name == ".." then .ok (if here.isEmpty then .outside else .inside here.dropLast)
      else if longestName < name.utf8ByteSize then .error .nameTooLong
      else child folder here name

/-- Where a path starts: at the folder, unless it starts with a slash. -/
def start (path : String) : Place :=
  if path.toList.head? == some '/' then .outside else .inside []

/-- Where the names of a path lead to from its start. -/
def walk (folder : Folder) (path : String) : Except FileError Place :=
  (names path).foldlM (enter folder) (start path)

/-- The text of the file at a path. -/
def read (folder : Folder) (path : String) : Except FileError String :=
  if path.isEmpty then .error .absent
  else if longestPath < path.utf8ByteSize then .error .nameTooLong
  else (walk folder path).bind Place.text

end Folder

end Mnemonic.CommandLine

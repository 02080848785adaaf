set_option autoImplicit false

namespace TypedStyle.CommandLine

inductive FileError where
  | missing
  | folder
  | notFolder
  | nameTooLong
  /-- contents that are no text -/
  | undecodable
  | other (message : String)
  deriving Repr, DecidableEq

def FileError.message : FileError → String
  | .missing => "No such file or directory (os error 2)"
  | .folder => "Is a directory (os error 21)"
  | .notFolder => "Not a directory (os error 20)"
  | .nameTooLong => "File name too long (os error 36)"
  | .undecodable => "stream did not contain valid UTF-8"
  | .other message => message

structure Files (m : Type → Type) where
  read : String → m (Except FileError ByteArray)
  write : String → ByteArray → m (Except FileError Unit)

/-- The files below a directory, by the parts of their paths. Every folder holds a file. -/
structure Directory where
  files : List (List String × ByteArray)

namespace Directory

def parts (path : String) : List String :=
  path.splitOn "/"

def ofFiles (files : List (String × ByteArray)) : Directory :=
  ⟨files.map fun (path, contents) => (parts path, contents)⟩

def contents? (directory : Directory) (place : List String) : Option ByteArray :=
  directory.files.lookup place

/-- The directory itself and those above it are folders, and so is whatever leads to a file. -/
def isFolder (directory : Directory) (place : List String) : Bool :=
  place.all (· == "..") ||
    directory.files.any fun (path, _) => place.isPrefixOf path && place != path

def partLimit : Nat :=
  255

def pathLimit : Nat :=
  4095

def follow (directory : Directory) (place : List String) :
    List String → Except FileError (List String)
  | [] => .ok place
  | part :: rest =>
    if directory.isFolder place then
      if part = "" ∨ part = "." then directory.follow place rest
      else if part = ".." ∧ !place.all (· == "..") then directory.follow place.dropLast rest
      else if partLimit < part.utf8ByteSize then .error .nameTooLong
      else directory.follow (place ++ [part]) rest
    else if (directory.contents? place).isSome then .error .notFolder
    else .error .missing

/-- A path from the root leads outside of the directory. -/
def locate (directory : Directory) (path : String) (parts : List String) :
    Except FileError (List String) :=
  if pathLimit < path.utf8ByteSize then .error .nameTooLong
  else directory.follow (if path.startsWith "/" then [".."] else []) parts

def read (directory : Directory) (path : String) : Except FileError ByteArray := do
  let place ← directory.locate path (parts path)
  match directory.contents? place with
  | some contents => return contents
  | none => throw (if directory.isFolder place then .folder else .missing)

def dropSlashes (parts : List String) : List String :=
  (parts.reverse.dropWhile (· == "")).reverse

/-- A path that ends in a slash names a folder, whatever stands there, as long as what leads to it
is one. -/
def write (directory : Directory) (path : String) (contents : ByteArray) :
    Except FileError Directory := do
  if path.endsWith "/" then
    let _ ← directory.locate path ((dropSlashes (parts path)).dropLast ++ [""])
    throw .folder
  else
    let place ← directory.locate path (parts path)
    if directory.isFolder place then throw .folder
    else return ⟨(place, contents) :: directory.files.filter (·.1 != place)⟩

def access : Files (StateM Directory) where
  read path := do return (← get).read path
  write path contents := do
    match (← get).write path contents with
    | .ok directory =>
      set directory
      return .ok ()
    | .error error => return .error error

end Directory

end TypedStyle.CommandLine

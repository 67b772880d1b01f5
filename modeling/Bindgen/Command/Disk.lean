import Bindgen.Command.Path
import Bindgen.Text.Literal

/-! # Disks

The files and directories that a run can see, and the operations on them. A
place is a list of names from the working directory, which may start with
double dots, or from a root. The working directory, what is above it, and the
roots always are directories.
-/

namespace Bindgen

abbrev Place := List String

inductive Entry where
  | file (content : List UInt8)
  | directory
deriving DecidableEq

structure Disk where
  entries : List (Place × Entry)
deriving DecidableEq

inductive DiskError where
  | notFound (path : String)
  | alreadyExists (path : String)
  | notDirectory (path : String)
  | isDirectory (path : String)
  | nameTooLong (path : String)
deriving DecidableEq

def DiskError.message : DiskError -> String
  | .notFound path => "[Errno 2] No such file or directory: " ++ Text.literal path
  | .alreadyExists path => "[Errno 17] File exists: " ++ Text.literal path
  | .notDirectory path => "[Errno 20] Not a directory: " ++ Text.literal path
  | .isDirectory path => "[Errno 21] Is a directory: " ++ Text.literal path
  | .nameTooLong path => "[Errno 36] File name too long: " ++ Text.literal path

/-- The working directory, a directory above it or a root. -/
def Place.isFixed (place : Place) : Bool :=
  place.all (· == "..") || place == ["/"] || place == ["//"]

def Place.up (place : Place) : Place :=
  if place.all (· == "..") then place ++ [".."]
  else if Place.isFixed place then place
  else place.dropLast

def Place.isRooted (place : Place) : Bool :=
  place.head? == some "/" || place.head? == some "//"

def Place.text (place : Place) : String :=
  if Place.isRooted place then place.head?.getD "" ++ Text.join "/" (place.drop 1)
  else Text.join "/" place

namespace Disk

def lookup? (d : Disk) (place : Place) : Option Entry :=
  if Place.isFixed place then some .directory else d.entries.lookup place

def put (d : Disk) (place : Place) (entry : Entry) : Disk where
  entries := (place, entry) :: d.entries.filter fun other => other.1 != place

/-- The most bytes of a name. -/
def maxName : Nat := 255

def maxPath : Nat := 4095

/-- Go along names from a place. Everything but the end must be a directory;
the end need not be there. -/
def walk (d : Disk) (path : String) (place : Place) : List String -> Except DiskError Place
  | [] => .ok place
  | name :: names =>
    match d.lookup? place with
    | none => .error (.notFound path)
    | some (.file _) => .error (.notDirectory path)
    | some .directory =>
      if maxName < name.utf8ByteSize then .error (.nameTooLong path)
      else d.walk path (if name == ".." then Place.up place else place ++ [name]) names

def resolve (d : Disk) (p : Path) : Except DiskError Place :=
  if maxPath < p.text.utf8ByteSize then .error (.nameTooLong p.text)
  else d.walk p.text (if p.root.isEmpty then [] else [p.root]) p.names

def find? (d : Disk) (p : Path) : Option Entry :=
  match d.resolve p with
  | .ok place => d.lookup? place
  | .error _ => none

def isDirectory (d : Disk) (p : Path) : Bool :=
  d.find? p == some .directory

def read (d : Disk) (p : Path) : Except DiskError (List UInt8) :=
  match d.resolve p with
  | .error e => .error e
  | .ok place =>
    match d.lookup? place with
    | none => .error (.notFound p.text)
    | some .directory => .error (.isDirectory p.text)
    | some (.file content) => .ok content

/-- Make a directory in one that is there. -/
def makeDirectory (d : Disk) (p : Path) : Except DiskError Disk :=
  match d.resolve p with
  | .error e => .error e
  | .ok place =>
    match d.lookup? place with
    | some _ => .error (.alreadyExists p.text)
    | none => .ok (d.put place .directory)

def ensureDirectory (d : Disk) (p : Path) : Except DiskError Disk :=
  match d.makeDirectory p with
  | .ok d => .ok d
  | .error (.notFound path) => .error (.notFound path)
  | .error e => if d.isDirectory p then .ok d else .error e

/-- Make a directory and those above it unless they are there. The names of the
path come last one first. -/
def ensureAlong (root : String) (d : Disk) : List String -> Disk × Except DiskError Unit
  | [] =>
    match d.ensureDirectory ⟨root, []⟩ with
    | .ok d => (d, .ok ())
    | .error e => (d, .error e)
  | name :: above =>
    let p : Path := ⟨root, (name :: above).reverse⟩
    match d.ensureDirectory p with
    | .ok d => (d, .ok ())
    | .error (.notFound _) =>
      match ensureAlong root d above with
      -- What was made before the failure stays.
      | (d, .error e) => (d, .error e)
      | (d, .ok ()) =>
        match d.ensureDirectory p with
        | .ok d => (d, .ok ())
        | .error e => (d, .error e)
    | .error e => (d, .error e)

def ensureDirectories (d : Disk) (p : Path) : Disk × Except DiskError Unit :=
  ensureAlong p.root d p.names.reverse

/-- Write a file in a directory that is there. -/
def write (d : Disk) (p : Path) (content : List UInt8) : Except DiskError Disk :=
  match d.resolve p with
  | .error e => .error e
  | .ok place =>
    match d.lookup? place with
    | some .directory => .error (.isDirectory p.text)
    | _ => .ok (d.put place (.file content))

/-- The files that are not the same in `before`, with their contents. -/
def changesSince (d before : Disk) : List (Place × List UInt8) :=
  d.entries.filterMap fun (place, entry) =>
    match entry with
    | .directory => none
    | .file content => if before.lookup? place == some entry then none else some (place, content)

end Disk

end Bindgen

import Bindgen.Text.Fields

/-! # Paths

A path is a root, which a relative path does not have, and the names along it.
Empty names and single dots are left out; double dots are kept, because what
they lead to depends on the disk.
-/

namespace Bindgen

structure Path where
  root : String
  names : List String
deriving DecidableEq

namespace Path

/-- The root at the start of a text: two slashes are one of their own, any
other number is the same as one. -/
def rootOf : List Char -> String
  | '/' :: '/' :: '/' :: _ => "/"
  | '/' :: '/' :: _ => "//"
  | '/' :: _ => "/"
  | _ => ""

def ofText (s : String) : Path where
  root := rootOf s.toList
  names := ((Text.fields (· == '/') s.toList).map String.ofList).filter fun name =>
    name != "" && name != "."

/-- The text of a path. The empty path is a single dot. -/
def text (p : Path) : String :=
  if p.root.isEmpty && p.names.isEmpty then "." else p.root ++ Text.join "/" p.names

def parent (p : Path) : Path :=
  { p with names := p.names.dropLast }

/-- The last name without what follows its last dot. A dot at the start or at
the end of a name does not count. -/
def stem (p : Path) : String :=
  let name := (p.names.getLast?.getD "").toList
  let extension := name.reverse.takeWhile (· != '.')
  let rest := name.take (name.length - extension.length - 1)
  if extension.isEmpty || rest.isEmpty || !name.contains '.' then String.ofList name
  else String.ofList rest

end Path

end Bindgen

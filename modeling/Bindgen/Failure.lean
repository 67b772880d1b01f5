import Bindgen.Text.Literal

/-! # Failures

Why a declaration file cannot be turned into bindings: reading its tree,
changing its declarations or printing them went wrong. Each cause has one
wording, and most are shown as a `Diagnostic` with the place they are about.
-/

namespace Bindgen

/-- A message about a file and a line of it, as far as they are known. -/
structure Diagnostic where
  message : String
  path : Option String
  line : Option Int
deriving DecidableEq

namespace Diagnostic

/-- The place in front of a message. An empty path or line 0 counts as unknown,
and without a path the line is not shown. -/
def place (d : Diagnostic) : String :=
  match d.path.getD "", d.line.getD 0 with
  | "", _ => ""
  | path, 0 => path ++ ": "
  | path, line => path ++ ":" ++ toString line ++ ": "

def text (d : Diagnostic) : String :=
  d.place ++ d.message

end Diagnostic

structure Site where
  path : String
  line : Nat
deriving DecidableEq

inductive ReadError where
  /-- A generic type without a name; `raw` is its text. -/
  | unnamedGeneric (site : Site) (raw : String)
  | unnamedReference (site : Site)
  | unnamedHeritage (site : Site)
  /-- A type alias that has no type in it. -/
  | emptyAlias
deriving DecidableEq

namespace ReadError

def message : ReadError -> String
  | .unnamedGeneric _ raw => "type reference name is null: " ++ raw
  | .unnamedReference _ => "type reference name is null"
  | .unnamedHeritage _ => "heritage clause without a type name"
  | .emptyAlias => "list index out of range"

def site? : ReadError -> Option Site
  | .unnamedGeneric site _ => some site
  | .unnamedReference site => some site
  | .unnamedHeritage site => some site
  | .emptyAlias => none

/-- The cause with its place. An alias without a type is a fault of the tree
and not of the file, so it has none. -/
def diagnostic? (e : ReadError) : Option Diagnostic :=
  e.site?.map fun site => ⟨e.message, some site.path, some site.line⟩

end ReadError

inductive PassError where
  /-- A parameter of a function or an indexer was replaced by something of
  another kind. -/
  | lostParam (name kind : String)
deriving DecidableEq

/-- The wording of a cause. -/
def PassError.message : PassError -> String
  | .lostParam name kind =>
    "param " ++ Text.literal name ++ " must be mapped to a param, got " ++ kind

inductive PrintError where
  | unnamedFunction
  /-- A parameter that takes all further arguments has no array type. -/
  | restNotArray (function param : String)
deriving DecidableEq

/-- The wording of a cause. -/
def PrintError.message : PrintError -> String
  | .unnamedFunction => "function member without a name"
  | .restNotArray function param =>
    "function " ++ function ++ " has a rest parameter " ++ param ++ " that is not an array"

/-- Why a file yields no bindings. -/
inductive Failure where
  | read (cause : ReadError)
  | pass (cause : PassError)
  | print (cause : PrintError)
deriving DecidableEq

namespace Failure

def message : Failure -> String
  | .read cause => cause.message
  | .pass cause => cause.message
  | .print cause => cause.message

def diagnostic? : Failure -> Option Diagnostic
  | .read cause => cause.diagnostic?
  | .pass cause => some ⟨cause.message, none, none⟩
  | .print cause => some ⟨cause.message, none, none⟩

end Failure

end Bindgen

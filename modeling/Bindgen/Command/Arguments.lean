import Bindgen.Text.Fields
import Bindgen.Text.Literal
import Bindgen.Text.Similarity

/-! # Arguments

The command takes paths and a few options, in any order; behind a lone `--`
everything is a path. Of several flags of one kind the last counts.
-/

namespace Bindgen

structure Arguments where
  paths : List String
  rootName : Option String
  convertImports : Option Bool
  debug : Option Bool
  help : Bool
deriving DecidableEq

inductive UsageError where
  /-- An option that is not there, and those that may have been meant. -/
  | noSuchOption (name : String) (meant : List String)
  | missingValue (name : String)
  | needlessValue (name : String)
  | directory (path : String)
  | noInput
  | noOutput
deriving DecidableEq

namespace UsageError

/-- A question after what may have been meant. -/
def questionText : List String -> String
  | [] => ""
  | [name] => " Did you mean " ++ Text.literal name ++ "?"
  | names => " (Did you mean one of: " ++ Text.join ", " (names.map Text.literal) ++ "?)"

def message : UsageError -> String
  | .noSuchOption name meant => "No such option " ++ Text.literal name ++ "." ++ questionText meant
  | .missingValue name => "Option " ++ Text.literal name ++ " requires an argument."
  | .needlessValue name => "Option " ++ Text.literal name ++ " does not take a value."
  | .directory path =>
    "Invalid value for \x27[PATHS]...\x27: File " ++ Text.literal path ++ " is a directory."
  | .noInput => "Please provide the path to a TypeScript definition file"
  | .noOutput => "Please provide the path to the F# file to be written"

/-- A wrong value of an option is reported without a reminder of the usage. -/
def showsUsage : UsageError -> Bool
  | .missingValue _ => false
  | .needlessValue _ => false
  | _ => true

end UsageError

namespace Arguments

def none : Arguments := ⟨[], .none, .none, .none, false⟩

def longOptions : List String :=
  ["--namespace", "--convert-imports", "--no-convert-imports", "--debug", "--no-debug", "--help"]

def flag? (name : String) (a : Arguments) : Option Arguments :=
  match name with
  | "--convert-imports" => some { a with convertImports := some true }
  | "--no-convert-imports" => some { a with convertImports := some false }
  | "--debug" => some { a with debug := some true }
  | "--no-debug" => some { a with debug := some false }
  | "--help" => some { a with help := true }
  | _ => .none

/-- The part of an argument before its first equals sign, and the value behind
it if there is one. -/
def splitValue (argument : String) : String × Option String :=
  let cs := argument.toList
  match cs.dropWhile (· != '=') with
  | [] => (argument, .none)
  | _ :: value => (String.ofList (cs.takeWhile (· != '=')), some (String.ofList value))

/-- Read an argument of one dash and letters. The only letter is `h`. -/
def readLetters (a : Arguments) : List Char -> Except UsageError Arguments
  | [] => .ok a
  | c :: cs =>
    if c == 'h' then readLetters { a with help := true } cs
    else .error (.noSuchOption (String.ofList ['-', c]) [])

/-- An option rather than a path: a dash with something behind it. -/
def isOption (argument : String) : Bool :=
  match argument.toList with
  | '-' :: _ :: _ => true
  | _ => false

/-- Read an option that has no value of its own behind it. -/
def readOption (a : Arguments) (argument : String) : Except UsageError Arguments :=
  let (name, value) := splitValue argument
  if name == "--namespace" then .ok { a with rootName := value }
  else
    match flag? name a with
    | some a => if value.isSome then .error (.needlessValue name) else .ok a
    | .none =>
      if argument.toList.take 2 == ['-', '-'] then
        .error (.noSuchOption name (Text.similar name longOptions))
      else readLetters a (argument.toList.drop 1)

/-- Read arguments behind those that are read already; `awaiting` tells that the
next one is the value of `--namespace`. -/
def readAfter (a : Arguments) (awaiting : Bool) : List String -> Except UsageError Arguments
  | [] => if awaiting then .error (.missingValue "--namespace") else .ok a
  | argument :: rest =>
    if awaiting then readAfter { a with rootName := some argument } false rest
    else if argument == "--" then .ok { a with paths := a.paths ++ rest }
    else if argument == "--namespace" then readAfter a true rest
    else if isOption argument then
      match readOption a argument with
      | .ok a => readAfter a false rest
      | .error e => .error e
    else readAfter { a with paths := a.paths ++ [argument] } false rest

def read (arguments : List String) : Except UsageError Arguments :=
  readAfter none false arguments

end Arguments

end Bindgen

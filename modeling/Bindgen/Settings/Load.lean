import Bindgen.Json
import Bindgen.Settings.Basic
import Bindgen.Settings.DotEnv
import Bindgen.Settings.Whole
import Bindgen.Text.LowerCase

/-! # Loading settings

A setting is taken from the first of these that has it: what the caller gives,
the environment, a file of variables, the default. Variables are named like
the settings with a common beginning, and case matters in no name.
-/

namespace Bindgen

inductive SettingsError where
  /-- A setting that does not exist or a value that does not fit. -/
  | invalid
  /-- The variable of a list is not JSON. -/
  | notJson (setting source : String)
deriving DecidableEq

/-- The wording of a cause. -/
def SettingsError.message : SettingsError -> String
  | .invalid => "invalid settings"
  | .notJson setting source =>
    "error parsing value for field \"" ++ setting ++ "\" from source \"" ++ source ++ "\""

/-- The truth value that a word stands for, in any case. -/
def truth? (s : String) : Option Bool :=
  let word := s.toLower
  if ["1", "true", "t", "yes", "y", "on"].contains word then some true
  else if ["0", "false", "f", "no", "n", "off"].contains word then some false
  else none

namespace Json

def text? : Json -> Option String
  | .string s => some s
  | _ => none

def optionalText? : Json -> Option (Option String)
  | .null => some none
  | .string s => some (some s)
  | _ => none

def allTexts? : List Json -> Option (List String)
  | [] => some []
  | j :: js =>
    match j.text?, allTexts? js with
    | some s, some ss => some (s :: ss)
    | _, _ => none

def texts? : Json -> Option (List String)
  | .array js => allTexts? js
  | _ => none

/-- A whole number, in whatever way it is written. -/
def wholeNumber? : Json -> Option Int
  | .whole n => some n
  | .decimal mantissa exponent => Whole.ofDecimal? mantissa exponent
  | .bool b => some (if b then 1 else 0)
  | .string s => Whole.ofText? s
  | _ => none

def truthOfNumber? : Option Int -> Option Bool
  | some 0 => some false
  | some 1 => some true
  | _ => none

def truth : Json -> Option Bool
  | .bool b => some b
  | .string s => truth? s
  | .whole n => truthOfNumber? (some n)
  | .decimal mantissa exponent => truthOfNumber? (Whole.ofDecimal? mantissa exponent)
  | _ => none

end Json

namespace Settings

def names : List String :=
  ["namespace", "opens", "browser_prefix", "browser_namespace", "static_suffix", "exports_name",
   "max_union_arity", "convert_ambient_imports", "debug"]

/-- The settings with one of them changed, if the value fits it. -/
def set? (s : Settings) (name : String) (value : Json) : Option Settings :=
  match name with
  | "namespace" => value.optionalText?.map fun v => { s with rootName := v }
  | "opens" => value.texts?.map fun v => { s with opens := v }
  | "browser_prefix" => value.text?.map fun v => { s with browserMark := v }
  | "browser_namespace" => value.text?.map fun v => { s with browserOpen := v }
  | "static_suffix" => value.text?.map fun v => { s with staticSuffix := v }
  | "exports_name" => value.text?.map fun v => { s with exportsName := v }
  | "max_union_arity" => value.wholeNumber?.map fun v => { s with maxUnionArity := v }
  | "convert_ambient_imports" => value.truth.map fun v => { s with convertImports := v }
  | "debug" => value.truth.map fun v => { s with debug := v }
  | _ => none

def setAll? (s : Settings) : List (String × Json) -> Option Settings
  | [] => some s
  | (name, value) :: rest =>
    match s.set? name value with
    | some s => s.setAll? rest
    | none => none

/-- The variable of a setting, in lower case. -/
def variableName (lead setting : String) : String :=
  Text.lower (lead ++ setting)

/-- Variables with their names in lower case. Of two names that become one the
later counts. -/
def lowerNames (assigned : List (String × Option String)) : List (String × Option String) :=
  assigned.foldl (fun lowered (name, value) => DotEnv.assign (Text.lower name) value lowered) []

/-- The value that the text of a variable gives to a setting: the text itself,
or what it says as JSON where a list is wanted. -/
def fromText (source setting text : String) : Except SettingsError Json :=
  if setting == "opens" then
    match Json.read? text with
    | some value => .ok value
    | none => .error (.notJson setting source)
  else .ok (.string text)

/-- The settings that are among variables with names in lower case. A list that
is null is as good as none. -/
def fromVariables (source lead : String) (assigned : List (String × Option String)) :
    List String -> Except SettingsError (List (String × Json))
  | [] => .ok []
  | setting :: rest => do
    let found ←
      match assigned.lookup (variableName lead setting) with
      | some (some text) => fromText source setting text
      | _ => .ok .null
    let others ← fromVariables source lead assigned rest
    match found with
    | .null => .ok others
    | value => .ok ((setting, value) :: others)

/-- A variable of a file that belongs to a setting, or that may stand in the
file without one: a variable without a value, or one that is named like a
setting without the common beginning. -/
def isExpected (lead : String) : String × Option String -> Bool
  | (_, none) => true
  | (name, some value) =>
    value.isEmpty || (!lead.isEmpty && names.contains name) ||
      (names.map (variableName lead)).contains name

/-- The value that the caller gives to a setting. Of names that differ only in
case the first counts. -/
def given? (overrides : List (String × Json)) (setting : String) : Option Json :=
  (overrides.find? fun (name, _) => Text.lower name == setting).map Prod.snd

/-- What the caller gives, under the names of the settings; nothing if a name is
not one of them. -/
def givenValues? (overrides : List (String × Json)) : Option (List (String × Json)) :=
  if overrides.all fun (name, _) => names.contains (Text.lower name) then
    some (names.filterMap fun setting => (given? overrides setting).map fun v => (setting, v))
  else none

def weaker (stronger values : List (String × Json)) : List (String × Json) :=
  values.filter fun (name, _) => !(stronger.map Prod.fst).contains name

/-- Load settings from what the caller gives, the environment and a file, the
stronger source first. -/
def load (lead : String) (overrides : List (String × Json)) (environment : List (String × String))
    (file : Option String) : Except SettingsError Settings := do
  let environmentVariables := lowerNames (environment.map fun (name, value) => (name, some value))
  let fileVariables := lowerNames ((file.map (DotEnv.read environment)).getD [])
  let second ← fromVariables "EnvSettingsSource" lead environmentVariables names
  let third ← fromVariables "DotEnvSettingsSource" lead fileVariables names
  match givenValues? overrides with
  | none => .error .invalid
  | some first =>
    -- A value that a stronger source replaces need not fit.
    let values := first ++ weaker first second ++ weaker (first ++ second) third
    if fileVariables.all (isExpected lead) then
      match ({} : Settings).setAll? values with
      | some settings => .ok settings
      | none => .error .invalid
    else .error .invalid

def defaultLead : String := "DTS2FABLE_"

end Settings

end Bindgen

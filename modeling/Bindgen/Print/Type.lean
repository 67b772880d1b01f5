import Bindgen.Decl.Basic
import Bindgen.Event
import Bindgen.Text.Fields
import Bindgen.Traced

/-! # Printed types

`typeText` is the text of a type expression. A declaration that is no type has
the text `TODO`, and `typeEvents` lists one warning for each of those met, in
the order of the text.
-/

namespace Bindgen

def optionMark (optional : Bool) : String :=
  if optional then " option" else ""

/-- A union of printed alternatives: any value if there is none, a single one
as it is, and an erased union type for several. -/
def unionText : List String -> String
  | [] => "obj"
  | [alternative] => alternative
  | alternatives =>
    "U" ++ toString alternatives.length ++ "<" ++ Text.join ", " alternatives ++ ">"

/-- A number is written in digits. -/
theorem isDigit_of_mem_toString {n : Nat} {c : Char} (h : c ∈ (toString n).toList) :
    c.isDigit = true := by
  have digits : c ∈ Nat.toDigits 10 n := by simpa [toString, Nat.repr] using h
  exact Nat.isDigit_of_mem_toDigits (by decide) (by decide) digits

/-- Printed arguments or parameters between angle brackets; nothing if there
are none. -/
def argumentsText : List String -> String
  | [] => ""
  | arguments => "<" ++ Text.join ", " arguments ++ ">"

/-- A function type. One without parameters takes a unit. -/
def arrowText (params : List String) (result : String) : String :=
  let domain := if params.isEmpty then ["unit"] else params
  "(" ++ Text.join " -> " (domain ++ [result]) ++ ")"

mutual

def Decl.typeText : Decl -> String
  | .named name => name
  | .array element => "ResizeArray<" ++ element.typeText ++ ">"
  | .union optional alternatives =>
    unionText (Decl.typeTexts alternatives) ++ optionMark optional
  | .generic base arguments => base.typeText ++ argumentsText (Decl.typeTexts arguments)
  | .function ⟨_, _, _, _, params, result⟩ =>
    arrowText (Param.typeTexts params) result.typeText
  | .tuple elements => Text.join " * " (Decl.typeTexts elements)
  | .var ⟨_, name, type⟩ => "abstract " ++ name ++ ": " ++ type.typeText ++ " with get, set"
  | .literal _ => "string"
  | _ => "TODO"

def Decl.typeTexts : List Decl -> List String
  | [] => []
  | d :: ds => d.typeText :: Decl.typeTexts ds

def Param.typeTexts : List Param -> List String
  | [] => []
  | ⟨_, _, _, type⟩ :: ps => type.typeText :: Param.typeTexts ps

end

mutual

/-- The warnings about what is no type in a type expression. -/
def Decl.typeEvents : Decl -> List Event
  | .named _ => []
  | .todo => []
  | .absent => []
  | .array element => element.typeEvents
  | .union _ alternatives => Decl.typesEvents alternatives
  | .generic base arguments => base.typeEvents ++ Decl.typesEvents arguments
  | .function ⟨_, _, _, _, params, result⟩ => Param.typesEvents params ++ result.typeEvents
  | .tuple elements => Decl.typesEvents elements
  | .var ⟨_, _, type⟩ => type.typeEvents
  | .literal _ => []
  | d => [.notAType d.kind]

def Decl.typesEvents : List Decl -> List Event
  | [] => []
  | d :: ds => d.typeEvents ++ Decl.typesEvents ds

def Param.typesEvents : List Param -> List Event
  | [] => []
  | ⟨_, _, _, type⟩ :: ps => type.typeEvents ++ Param.typesEvents ps

end

theorem Decl.typeTexts_eq_map (ds : List Decl) : Decl.typeTexts ds = ds.map Decl.typeText := by
  induction ds with
  | nil => rfl
  | cons d ds ih => rw [Decl.typeTexts, ih, List.map_cons]

theorem Param.typeTexts_eq_map (ps : List Param) :
    Param.typeTexts ps = ps.map fun p => p.type.typeText := by
  induction ps with
  | nil => rfl
  | cons p ps ih =>
    obtain ⟨_, _, _, type⟩ := p
    rw [Param.typeTexts, ih, List.map_cons]

variable {ε : Type}

def Decl.printType (d : Decl) : Traced Event ε String :=
  ⟨d.typeEvents, .ok d.typeText⟩

def printTypeParams (typeParams : List Decl) : Traced Event ε String :=
  ⟨Decl.typesEvents typeParams, .ok (argumentsText (Decl.typeTexts typeParams))⟩

end Bindgen

import Bindgen.Failure
import Bindgen.Print.Type
import Bindgen.Text.Quoted

/-! # Printed members

The lines of functions and properties inside an interface. Only functions can
fail to print: one that has no name, or one with a rest parameter whose type
is no array.
-/

namespace Bindgen

abbrev Printing := Traced Event PrintError

/-- The attribute that carries the template of a member. -/
def emitAttribute : Option String -> String
  | none => ""
  | some template => "[<Emit \"" ++ Text.Quoted.encode template ++ "\">] "

def Param.mark (p : Param) : String :=
  if p.optional then "?" else ""

/-- A parameter of the function called `function`. A rest parameter shows the
type of its elements. -/
def Param.print (function : String) (p : Param) : Printing String :=
  if p.isRest then
    match p.type with
    | .array element => do
      let type ← element.printType
      .done ("[<ParamArray>] " ++ p.mark ++ p.name ++ ": " ++ type)
    | _ => .fail (.restNotArray function p.name)
  else do
    let type ← p.type.printType
    .done (p.mark ++ p.name ++ ": " ++ type)

/-- Printed parameters; a function without any takes a unit. -/
def paramsText : List String -> String
  | [] => "unit"
  | params => Text.join " * " params

def Signature.print (f : Signature) : Printing String :=
  match f.name with
  | none => .fail .unnamedFunction
  | some name => do
    let params ← Traced.traverse (Param.print name) f.params
    let result ← f.result.printType
    .done (emitAttribute f.emit ++ "abstract " ++ name ++ ": " ++ paramsText params ++ " -> " ++
      result)

def printIndex : Option Param -> Printing String
  | none => .done ""
  | some p => do
    let type ← p.type.printType
    .done (p.name ++ ": " ++ type ++ " -> ")

def Property.print (p : Property) : Printing String := do
  let index ← printIndex p.index
  let type ← p.type.printType
  .done (emitAttribute p.emit ++ "abstract " ++ p.name ++ ": " ++ index ++ type ++
    optionMark p.optional ++ " with get, set")

def Decl.printMember : Decl -> Printing String
  | .function f => f.print
  | .property p => p.print
  | d => d.printType

end Bindgen

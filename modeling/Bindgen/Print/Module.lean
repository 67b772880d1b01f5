import Bindgen.Print.Member
import Bindgen.Word

/-! # Printed files

The lines of interfaces, enums, aliases, imports, modules and files. Every
block starts with an empty line, and what is inside a block stands four
columns to the right of it.
-/

namespace Bindgen

def indentStep : String := "    "

def printInherit (d : Decl) : Printing String := do
  let type ← d.printType
  .done ("inherit " ++ type)

/-- The body of an interface, which is never empty. -/
def bodyLines : List String -> List String
  | [] => ["interface end"]
  | lines => lines

def Interface.print (indent : String) (i : Interface) : Printing (List String) := do
  let typeParams ← printTypeParams i.typeParams
  let inherits ← Traced.traverse printInherit i.inherits
  let members ← Traced.traverse Decl.printMember i.members
  let body := bodyLines (inherits ++ members)
  .done ("" :: (indent ++ "type [<AllowNullLiteral>] " ++ i.name ++ typeParams ++ " =") ::
    body.map fun line => indent ++ indentStep ++ line)

/-- A case of an enum. A name that is no case identifier is kept in an
attribute. -/
def caseText (name : String) : String :=
  if Word.enumName name == name then "| " ++ name
  else "| [<CompiledName \"" ++ Text.Quoted.encode name ++ "\">] " ++ Word.enumName name

def caseValueText : Option String -> String
  | none => ""
  | some value => " = " ++ value

/-- The lines of an enum. One that holds unknown values is any value. -/
def Enum.print (indent : String) (e : Enum) : List String :=
  match e.type with
  | .unknown => ["", indent ++ "type " ++ e.name ++ " =", indent ++ indentStep ++ "obj"]
  | .numeric =>
    "" :: (indent ++ "type [<RequireQualifiedAccess>] " ++ e.name ++ " =") ::
      e.cases.map fun c => indent ++ indentStep ++ (caseText c.name ++ caseValueText c.value)
  | .text =>
    "" :: (indent ++ "type [<StringEnum>] [<RequireQualifiedAccess>] " ++ e.name ++ " =") ::
      e.cases.map fun c => indent ++ indentStep ++ caseText c.name

def Alias.print (indent : String) (a : Alias) : Printing (List String) := do
  let typeParams ← printTypeParams a.typeParams
  let type ← a.type.printType
  .done ["", indent ++ "type " ++ a.name ++ typeParams ++ " =", indent ++ indentStep ++ type]

def Import.print (indent : String) (i : Import) : List String :=
  ["", indent ++ "let [<Import(\"*\",\"" ++ Text.Quoted.encode (Text.join "." i.path) ++
    "\")>] " ++ i.binding ++ ": " ++ i.type ++ " = jsNative"]

/-- The block of a module around the lines inside it. The global module has no
block of its own. -/
def moduleLines (indent name : String) (inside : List String) : List String :=
  if name.isEmpty then inside else "" :: (indent ++ "module " ++ name ++ " =") :: inside

def moduleIndent (indent name : String) : String :=
  if name.isEmpty then indent else indent ++ indentStep

mutual

/-- The lines of an entry of a module. Values are reached through the exports
interface, so they have none. -/
def Decl.printEntry (indent : String) : Decl -> Printing (List String)
  | .interface i => i.print indent
  | .enum e => .done (e.print indent)
  | .typeAlias a => a.print indent
  | .imported i => .done (i.print indent)
  | .module ⟨name, entries⟩ => do
    let inside ← Decl.printEntries (moduleIndent indent name) entries
    .done (moduleLines indent name inside)
  | _ => .done []

def Decl.printEntries (indent : String) : List Decl -> Printing (List String)
  | [] => .done []
  | d :: ds => do
    let first ← d.printEntry indent
    let rest ← Decl.printEntries indent ds
    .done (first ++ rest)

end

/-- The lines of a module behind those that are printed already. -/
def Module.print (before : List String) (indent : String) (m : Module) :
    Printing (List String) := do
  let lines ← (Decl.module m).printEntry indent
  .done (before ++ lines)

/-- The lines of modules; those without entries are left out. -/
def printModules : List String -> List Module -> Printing (List String)
  | before, [] => .done before
  | before, m :: ms =>
    if m.entries.isEmpty then printModules before ms
    else do
      let lines ← m.print before ""
      printModules lines ms

def File.print (f : File) : Printing (List String) :=
  printModules (("module rec " ++ f.name) :: f.opens.map ("open " ++ ·)) f.modules

end Bindgen

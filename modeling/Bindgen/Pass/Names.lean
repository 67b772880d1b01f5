import Bindgen.Pass.Types
import Bindgen.Print.Type
import Bindgen.Word

/-! # Names

Names get the spelling that the generated language needs: reserved words are
escaped, and type parameters are quoted where they are bound.
-/

namespace Bindgen

variable {ω : Type}

/-- The declaration with its own name escaped. Enums and files keep theirs. -/
def Decl.escapeName : Decl -> Decl
  | .named name => .named (Word.escape name)
  | .function f => .function { f with name := f.name.map Word.escape }
  | .param p => .param { p with name := Word.escape p.name }
  | .property p => .property { p with name := Word.escape p.name }
  | .interface i => .interface { i with name := Word.escape i.name }
  | .module m => .module { m with name := Word.escape m.name }
  | .var v => .var { v with name := Word.escape v.name }
  | .typeAlias a => .typeAlias { a with name := Word.escape a.name }
  | .imported i => .imported { i with binding := Word.escape i.binding }
  | d => d

def File.escapeNames (f : File) : Traced ω PassError File :=
  f.transform (Rule.pure Decl.escapeName)

/-- Put a quote before a type name that is among the bound ones. -/
def Decl.quoteName (bound : List String) : Decl -> Decl
  | .named name => .named (if bound.contains name then "\x27" ++ name else name)
  | d => d

def quoteParams (typeParams : List Decl) (d : Decl) : Traced Event PassError Decl :=
  if typeParams.isEmpty then .done d
  else do
    .notes (Decl.typesEvents typeParams)
    Decl.transform (Rule.pure (Decl.quoteName (Decl.typeTexts typeParams))) d

def Decl.quoteFunction : Decl -> Traced Event PassError Decl
  | .function f => quoteParams f.typeParams (.function f)
  | d => .done d

/-- Quote in the function members of an interface what they bind. -/
def quoteFunctionMembers : Rule Event
  | .interface i => do
    let members ← Traced.traverse Decl.quoteFunction i.members
    .done (.interface { i with members })
  | d => .done d

def File.quoteFunctions (f : File) : Traced Event PassError File :=
  f.transform quoteFunctionMembers

def quoteType : Rule Event
  | .interface i => quoteParams i.typeParams (.interface i)
  | .typeAlias a => quoteParams a.typeParams (.typeAlias a)
  | d => .done d

def File.quoteTypes (f : File) : Traced Event PassError File :=
  f.transform quoteType

end Bindgen

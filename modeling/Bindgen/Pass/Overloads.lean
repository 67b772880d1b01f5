import Bindgen.Pass.Types
import Bindgen.Word

/-! # Overloads on a string

A function whose first parameter is a single string is called in the generated
code by a name that has the string in it; a template restores the call.
-/

namespace Bindgen

variable {ω : Type}

/-- The template of a call of `name` with a string as its first argument. -/
def overloadTemplate (name text : String) : String :=
  "$0." ++ name ++ "(\x27" ++ text ++ "\x27,$1...)"

/-- Move a leading string parameter of a named function without a template into
its name. -/
def Signature.specialize (f : Signature) : Signature :=
  match f.emit, f.name, f.params with
  | none, some name, ⟨_, _, _, .literal text⟩ :: params =>
    let raw := Word.unescape name
    { f with
      emit := some (overloadTemplate raw text)
      name := some (Word.escape (raw ++ "_" ++ text))
      params }
  | _, _, _ => f

def Decl.specialize : Decl -> Decl
  | .function f => .function f.specialize
  | d => d

def File.specializeOverloads (f : File) : Traced ω PassError File :=
  f.transform (Rule.pure Decl.specialize)

end Bindgen

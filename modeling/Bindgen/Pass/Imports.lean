import Bindgen.Failure
import Bindgen.Print.Type

/-! # Imports of the script world

Variables that the script world provides become imports, which carry the path
of the modules around them.
-/

namespace Bindgen

/-- The path inside a module; the global module adds nothing to it. -/
def pathInside (path : List String) (name : String) : List String :=
  if name.isEmpty then path else path ++ [name]

mutual

def Decl.convertImport (path : List String) : Decl -> Traced Event PassError Decl
  | .module ⟨name, entries⟩ => do
    let entries ← Decl.convertImports (pathInside path name) entries
    .done (.module ⟨name, entries⟩)
  | .imported i => .done (.imported { i with path })
  | .var ⟨declared, name, type⟩ =>
    if declared then do
      let text ← type.printType
      .done (.imported ⟨path, name, text⟩)
    else .done (.var ⟨declared, name, type⟩)
  | d => .done d

def Decl.convertImports (path : List String) : List Decl -> Traced Event PassError (List Decl)
  | [] => .done []
  | d :: ds => do
    let d ← d.convertImport path
    let ds ← Decl.convertImports path ds
    .done (d :: ds)

end

/-- Convert the variables of a module that stands at `path`. -/
def Module.convertImports (path : List String) (m : Module) : Traced Event PassError Module := do
  let entries ← Decl.convertImports (pathInside path m.name) m.entries
  .done { m with entries }

end Bindgen

import Bindgen.Decl.Basic
import Bindgen.Failure
import Bindgen.Traced

/-! # Bottom-up transformation

`Decl.transform rule` applies a rule to every declaration of a tree, children before
parents. A rule may record events and may put any declaration in the place of
another, with two exceptions: a parameter of a function or an indexer must
stay a parameter, and a module of a file that becomes something else is
dropped.
-/

namespace Bindgen

/-- What to put in the place of a declaration whose children are transformed. -/
abbrev Rule (ω : Type) := Decl -> Traced ω PassError Decl

/-- The parameter that a rule put in the place of the one called `name`. -/
def Rule.keepParam {ω : Type} (name : String) : Decl -> Traced ω PassError Param
  | .param p => .done p
  | d => .fail (.lostParam name d.kind)

variable {ω : Type}

mutual

/-- Transform a declaration: its children in order, then the declaration. -/
def Decl.transform (rule : Rule ω) : Decl -> Traced ω PassError Decl
  | .interface ⟨isStatic, name, typeParams, inherits, members⟩ => do
    let typeParams ← Decl.transformAll rule typeParams
    let inherits ← Decl.transformAll rule inherits
    let members ← Decl.transformAll rule members
    rule (.interface ⟨isStatic, name, typeParams, inherits, members⟩)
  | .property ⟨emit, isStatic, index, name, optional, type⟩ => do
    let index ← Param.transformOption rule index
    let type ← Decl.transform rule type
    rule (.property ⟨emit, isStatic, index, name, optional, type⟩)
  | .param ⟨name, optional, isRest, type⟩ => do
    let type ← Decl.transform rule type
    rule (.param ⟨name, optional, isRest, type⟩)
  | .array element => do
    let element ← Decl.transform rule element
    rule (.array element)
  | .function ⟨emit, isStatic, name, typeParams, params, result⟩ => do
    let typeParams ← Decl.transformAll rule typeParams
    let params ← Param.transformAll rule params
    let result ← Decl.transform rule result
    rule (.function ⟨emit, isStatic, name, typeParams, params, result⟩)
  | .union optional alternatives => do
    let alternatives ← Decl.transformAll rule alternatives
    rule (.union optional alternatives)
  | .typeAlias ⟨name, type, typeParams⟩ => do
    let type ← Decl.transform rule type
    let typeParams ← Decl.transformAll rule typeParams
    rule (.typeAlias ⟨name, type, typeParams⟩)
  | .generic base arguments => do
    let base ← Decl.transform rule base
    let arguments ← Decl.transformAll rule arguments
    rule (.generic base arguments)
  | .tuple elements => do
    let elements ← Decl.transformAll rule elements
    rule (.tuple elements)
  | .module ⟨name, entries⟩ => do
    let entries ← Decl.transformAll rule entries
    rule (.module ⟨name, entries⟩)
  | .file ⟨name, opens, modules⟩ => do
    let modules ← Module.transformAll rule modules
    rule (.file ⟨name, opens, modules⟩)
  | .var ⟨declared, name, type⟩ => do
    let type ← Decl.transform rule type
    rule (.var ⟨declared, name, type⟩)
  | .enum e => rule (.enum e)
  | .todo => rule .todo
  | .absent => rule .absent
  | .named name => rule (.named name)
  | .literal text => rule (.literal text)
  | .imported i => rule (.imported i)
  | .self => rule .self

def Decl.transformAll (rule : Rule ω) : List Decl -> Traced ω PassError (List Decl)
  | [] => .done []
  | d :: ds => do
    let d ← Decl.transform rule d
    let ds ← Decl.transformAll rule ds
    .done (d :: ds)

def Param.transformAll (rule : Rule ω) : List Param -> Traced ω PassError (List Param)
  | [] => .done []
  | ⟨name, optional, isRest, type⟩ :: ps => do
    let type ← Decl.transform rule type
    let d ← rule (.param ⟨name, optional, isRest, type⟩)
    let p ← Rule.keepParam name d
    let ps ← Param.transformAll rule ps
    .done (p :: ps)

def Param.transformOption (rule : Rule ω) : Option Param -> Traced ω PassError (Option Param)
  | none => .done none
  | some ⟨name, optional, isRest, type⟩ => do
    let type ← Decl.transform rule type
    let d ← rule (.param ⟨name, optional, isRest, type⟩)
    let p ← Rule.keepParam name d
    .done (some p)

/-- Transform the modules of a file and keep those that are modules still. -/
def Module.transformAll (rule : Rule ω) : List Module -> Traced ω PassError (List Module)
  | [] => .done []
  | ⟨name, entries⟩ :: ms => do
    let entries ← Decl.transformAll rule entries
    let d ← rule (.module ⟨name, entries⟩)
    let ms ← Module.transformAll rule ms
    .done (d.module?.toList ++ ms)

end

/-- Transform the entries of a module; the module itself stays. -/
def Module.transform (rule : Rule ω) (m : Module) : Traced ω PassError Module := do
  let entries ← Decl.transformAll rule m.entries
  .done { m with entries }

def File.transform (rule : Rule ω) (f : File) : Traced ω PassError File := do
  let modules ← Module.transformAll rule f.modules
  .done { f with modules }

end Bindgen

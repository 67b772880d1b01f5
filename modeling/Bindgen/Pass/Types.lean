import Bindgen.Decl.Transform

/-! # Passes over the types of a module

Three changes to the type expressions of one module: `this` as a result type,
the arrays of syntax nodes, and dates.
-/

namespace Bindgen

variable {ω : Type}

def Rule.pure (f : Decl -> Decl) : Rule ω :=
  fun d => .done (f d)

/-- A member with `type` as its result, if its result is the object it belongs
to. -/
def Decl.resultOf (type : Decl) : Decl -> Decl
  | .function f =>
    match f.result with
    | .self => .function { f with result := type }
    | _ => .function f
  | d => d

/-- The type of the objects of an interface: its name, applied to its own type
parameters. -/
def Interface.selfType (i : Interface) : Decl :=
  .generic (.named i.name) i.typeParams

/-- Spell out the results of the members of an interface that are the object
itself. -/
def Decl.resolveSelf : Decl -> Decl
  | .interface i =>
    .interface { i with members := i.members.map (Decl.resultOf i.selfType) }
  | d => d

def Module.resolveSelf (m : Module) : Traced ω PassError Module :=
  m.transform (Rule.pure Decl.resolveSelf)

/-- A type called `marker` with one argument becomes the array of that
argument. -/
def Decl.collapseArray (marker : String) : Decl -> Decl
  | .generic (.named name) [element] =>
    if name = marker then .array element else .generic (.named name) [element]
  | d => d

def nodeArrayMarker : String := "NodeArray"

def Module.collapseArrays (marker : String) (m : Module) : Traced ω PassError Module :=
  m.transform (Rule.pure (Decl.collapseArray marker))

def Decl.renameDate : Decl -> Decl
  | .named name => .named (if name = "Date" then "DateTime" else name)
  | d => d

def Module.renameDates (m : Module) : Traced ω PassError Module :=
  m.transform (Rule.pure Decl.renameDate)

end Bindgen

import Bindgen.Pass.Types

/-! # Static members and exported values

The static members of an interface move to an interface of their own beside
it, and the values of a module are collected in an exports interface, which
stands first in the module.
-/

namespace Bindgen

variable {ω : Type}

/-- The interface that holds the static members of another one. -/
def Interface.holder (suffix : String) (i : Interface) : Interface :=
  { i with
    isStatic := true
    name := i.name ++ suffix
    inherits := []
    members := i.staticMembers }

/-- An interface with static members becomes two: the rest of it and the holder
of its static members. -/
def Decl.splitStatic (suffix : String) : Decl -> List Decl
  | .interface i =>
    if i.isStatic || !i.hasStaticMembers then [.interface i]
    else [.interface { i with members := i.instanceMembers }, .interface (i.holder suffix)]
  | d => [d]

def Decl.splitEntries (suffix : String) : Decl -> Decl
  | .module m => .module { m with entries := m.entries.flatMap (Decl.splitStatic suffix) }
  | d => d

def File.splitStatics (suffix : String) (f : File) : Traced ω PassError File :=
  f.transform (Rule.pure (Decl.splitEntries suffix))

def withoutSuffix (suffix name : String) : String :=
  if !suffix.isEmpty && suffix.toList.isSuffixOf name.toList then
    String.ofList (name.toList.take (name.toList.length - suffix.toList.length))
  else name

/-- The member through which a static holder is reached. -/
def Interface.accessor (suffix : String) (i : Interface) : Property where
  emit := none
  isStatic := false
  index := none
  name := withoutSuffix suffix i.name
  optional := false
  type := .named i.name

/-- What an entry of a module adds to the exports of it: a value itself, and a
static holder its accessor. -/
def Decl.exported? (suffix : String) : Decl -> Option Decl
  | .var v => some (.var v)
  | .function f => some (.function f)
  | .interface i => if i.isStatic then some (.property (i.accessor suffix)) else none
  | _ => none

def exportsInterface (name : String) (members : List Decl) : Interface where
  isStatic := false
  name := name
  typeParams := []
  inherits := []
  members := members

/-- Put the exports interface before the entries, if there is anything in it. -/
def withExports (name suffix : String) (entries : List Decl) : List Decl :=
  match entries.filterMap (Decl.exported? suffix) with
  | [] => entries
  | members => .interface (exportsInterface name members) :: entries

def Decl.addExports (name suffix : String) : Decl -> Decl
  | .module m => .module { m with entries := withExports name suffix m.entries }
  | d => d

def File.addExports (name suffix : String) (f : File) : Traced ω PassError File :=
  f.transform (Rule.pure (Decl.addExports name suffix))

end Bindgen

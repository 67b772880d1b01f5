import Bindgen.Decl.Basic

/-! # Merging declarations

An interface or a module may be declared several times, each time adding to
it. Merging folds the later declarations of a name into the first one; the
order of everything else stays. A class is read as an interface and is folded
like one; enums and aliases are not merged.
-/

namespace Bindgen

/-- The interface with what a later declaration of it adds. -/
def Interface.absorb (first later : Interface) : Interface :=
  { first with
    inherits := first.inherits ++ later.inherits
    members := first.members ++ later.members }

/-- Add an interface to declarations: to the one of its name, else at the end. -/
def insertInterface (i : Interface) : List Decl -> List Decl
  | [] => [.interface i]
  | .interface first :: ds =>
    if first.name = i.name then .interface (first.absorb i) :: ds
    else .interface first :: insertInterface i ds
  | d :: ds => d :: insertInterface i ds

/-- Add any declaration; only interfaces are folded. -/
def addFoldingInterfaces (ds : List Decl) : Decl -> List Decl
  | .interface i => insertInterface i ds
  | d => ds ++ [d]

/-- Fold the interfaces that share a name into the first of them. -/
def mergeInterfaces (ds : List Decl) : List Decl :=
  ds.foldl addFoldingInterfaces []

/-- Add a module to declarations: to the one of its name, else at the end.
`combine` merges the entries of two declarations of one module. -/
def insertModule (combine : List Decl -> List Decl) (m : Module) : List Decl -> List Decl
  | [] => [.module m]
  | .module first :: ds =>
    if first.name = m.name then
      .module { first with entries := combine (first.entries ++ m.entries) } :: ds
    else .module first :: insertModule combine m ds
  | d :: ds => d :: insertModule combine m ds

/-- Add any declaration; the entries of a module are merged before it is added
and again with those of an earlier declaration of it. -/
def addFoldingModules (combine : List Decl -> List Decl) (ds : List Decl) : Decl -> List Decl
  | .module m => insertModule combine { m with entries := combine m.entries } ds
  | d => ds ++ [d]

/-- Fold the modules that share a name, with `depth` levels of modules inside
modules. -/
def mergeModulesTo : Nat -> List Decl -> List Decl
  | 0, ds => ds
  | depth + 1, ds =>
    ds.foldl (addFoldingModules fun entries => mergeInterfaces (mergeModulesTo depth entries)) []

mutual

def Decl.moduleDepth : Decl -> Nat
  | .module ⟨_, entries⟩ => Decl.modulesDepth entries + 1
  | _ => 0

def Decl.modulesDepth : List Decl -> Nat
  | [] => 0
  | d :: ds => max d.moduleDepth (Decl.modulesDepth ds)

end

/-- Fold the modules that share a name at the same depth, and the interfaces
inside every module. -/
def mergeModules (ds : List Decl) : List Decl :=
  mergeModulesTo (Decl.modulesDepth ds) ds

def Module.merge (m : Module) : Module :=
  { m with entries := mergeInterfaces m.entries }

def File.merge (f : File) : File :=
  { f with modules := (mergeModules (f.modules.map .module)).filterMap Decl.module? }

end Bindgen

import Bindgen.Merge
import Bindgen.Pass.Pipeline

/-! # Passes as values

Every change that can be made to a file between reading and printing, and runs
of several of them.
-/

namespace Bindgen

/-- A change to a file. -/
inductive Pass where
  | resolveSelf
  | collapseArrays (marker : String)
  | renameDates
  | convertImports (path : List String)
  | mergeInterfaces
  | mergeModules
  | openMarked (mark opened : String)
  | splitStatics (suffix : String)
  | addExports (name suffix : String)
  | escapeNames
  | quoteFunctions
  | quoteTypes
  | specializeOverloads
  | capUnions (limit : Int)
  | prepare (settings : Settings)

namespace Pass

def apply (f : File) : Pass -> Traced Event PassError File
  | .resolveSelf => f.mapModules Module.resolveSelf
  | .collapseArrays marker => f.mapModules (Module.collapseArrays marker)
  | .renameDates => f.mapModules Module.renameDates
  | .convertImports path => f.mapModules (Module.convertImports path)
  | .mergeInterfaces => .done { f with modules := f.modules.map Module.merge }
  | .mergeModules => .done f.merge
  | .openMarked mark opened => f.openMarked mark opened
  | .splitStatics suffix => f.splitStatics suffix
  | .addExports name suffix => f.addExports name suffix
  | .escapeNames => f.escapeNames
  | .quoteFunctions => f.quoteFunctions
  | .quoteTypes => f.quoteTypes
  | .specializeOverloads => f.specializeOverloads
  | .capUnions limit => f.capUnions limit
  | .prepare settings => f.prepare settings

def applyAll (f : File) (passes : List Pass) : Traced Event PassError File :=
  Traced.fold apply f passes

end Pass

end Bindgen

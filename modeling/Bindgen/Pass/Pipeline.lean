import Bindgen.Pass.Exports
import Bindgen.Pass.Imports
import Bindgen.Pass.Names
import Bindgen.Pass.Opens
import Bindgen.Pass.Overloads
import Bindgen.Pass.Unions
import Bindgen.Settings.Basic

/-! # The passes in order

From a merged file to one that can be printed. The order matters: names are
escaped after static holders and exports got theirs, and type parameters are
quoted in their escaped spelling.
-/

namespace Bindgen

def File.mapModules (pass : Module -> Traced Event PassError Module) (f : File) :
    Traced Event PassError File := do
  let modules ← Traced.traverse pass f.modules
  .done { f with modules }

/-- Turn variables into imports, if the settings ask for it. Their paths start
with the name of the file. -/
def File.settleImports (settings : Settings) (f : File) : Traced Event PassError File :=
  if settings.convertImports then f.mapModules (Module.convertImports [f.name]) else .done f

def Module.settleTypes (m : Module) : Traced Event PassError Module := do
  let m ← m.resolveSelf
  let m ← m.collapseArrays nodeArrayMarker
  m.renameDates

def File.prepare (settings : Settings) (f : File) : Traced Event PassError File := do
  let f ← f.settleImports settings
  let f ← f.mapModules Module.settleTypes
  let f ← f.openMarked settings.browserMark settings.browserOpen
  -- Static members are split off first, because the exports reach their holders.
  let f ← f.splitStatics settings.staticSuffix
  let f ← f.addExports settings.exportsName settings.staticSuffix
  let f ← f.escapeNames
  let f ← f.quoteFunctions
  let f ← f.quoteTypes
  let f ← f.specializeOverloads
  let f ← f.capUnions settings.maxUnionArity
  .note (.passesApplied f.name f.modules.length)
  .done f

end Bindgen

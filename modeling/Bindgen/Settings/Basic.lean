/-! # Settings

What can be chosen for a run, and what holds if nothing is chosen.
-/

namespace Bindgen

/-- The choices for one run. -/
structure Settings where
  /-- The name in the header of a generated file; the name of the output file
  if there is none. -/
  rootName : Option String := none
  /-- What every generated file opens. -/
  opens : List String := ["System", "Fable.Core", "Fable.Import.JS"]
  /-- How the names of browser types start. -/
  browserMark : String := "HTML"
  /-- What is opened when a browser type is named. -/
  browserOpen : String := "Fable.Import.Browser"
  /-- The end of the names of interfaces that hold static members. -/
  staticSuffix : String := "Static"
  /-- The name of the interface that collects the values of a module. -/
  exportsName : String := "IExports"
  /-- The most alternatives of a union that is printed as one. -/
  maxUnionArity : Int := 6
  /-- Whether variables of the script world become imports. -/
  convertImports : Bool := false
  /-- Whether details are logged. -/
  debug : Bool := false
deriving DecidableEq

end Bindgen

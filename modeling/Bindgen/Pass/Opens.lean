import Bindgen.Decl.Transform
import Bindgen.Event

/-! # Opening the browser types

A file that names a browser type opens the namespace that they are in.
-/

namespace Bindgen

def hasMark (mark name : String) : Bool :=
  mark.toList.isPrefixOf name.toList

/-- Record the names of types that start with a mark; change nothing. -/
def noteMarked (mark : String) : Rule String
  | .named name => do
    if hasMark mark name then .note name
    .done (.named name)
  | d => .done d

/-- Open `opened` if it is not open already and some type name of the file
starts with the mark. -/
def File.openMarked (mark opened : String) (f : File) : Traced Event PassError File :=
  match Decl.transform (noteMarked mark) (.file f) with
  | ⟨_, .error e⟩ => .fail e
  | ⟨[], .ok _⟩ => .done f
  | ⟨name :: _, .ok _⟩ =>
    if f.opens.contains opened then .done f
    else do
      .note (.browserType name opened)
      .done { f with opens := f.opens ++ [opened] }

end Bindgen

import Bindgen.Merge
import Bindgen.Pass.Pipeline
import Bindgen.Print.Module
import Bindgen.Read.Statement

/-! # From a syntax tree to the lines of a binding file -/

namespace Bindgen

open Syntax

/-- Read and merge a declaration file. Its statements are the entries of the
global module of the binding file. -/
def File.read (settings : Settings) (path rootName : String) (tree : Node) : Reading File := do
  let entries ← readDeclarations path tree
  .done (File.merge ⟨rootName, settings.opens, [⟨"", entries⟩]⟩)

def generate (settings : Settings) (path rootName : String) (tree : Node) :
    Traced Event Failure (List String) := do
  let file ← (File.read settings path rootName tree).mapError .read
  let file ← (file.prepare settings).mapError .pass
  file.print.mapError .print

end Bindgen

import Bindgen.Decl.Equality
import Bindgen.Decl.Transform
import Bindgen.Event

/-! # Width of unions

A union names each of its alternatives once, and one that is still too wide
for the generated language becomes the type of any value.
-/

namespace Bindgen

/-- Drop repeated alternatives; give up a union with more than `limit`. -/
def capUnion (limit : Int) : Rule Event
  | .union optional alternatives =>
    let distinct := Decl.dedupe alternatives
    if limit < distinct.length then do
      .note (.wideUnion distinct.length limit)
      .done .obj
    else .done (.union optional distinct)
  | d => .done d

def File.capUnions (limit : Int) (f : File) : Traced Event PassError File :=
  f.transform (capUnion limit)

end Bindgen

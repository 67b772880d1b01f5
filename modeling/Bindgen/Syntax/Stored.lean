import Bindgen.Json
import Bindgen.Syntax.Node

/-! # Stored syntax trees

A syntax tree as a JSON value. A node is the array of its type, 1 or 0 for
named or not, its field or null, its two byte offsets and its children.
-/

namespace Bindgen.Syntax

def offset? : Json -> Option Nat
  | .whole (.ofNat n) => some n
  | _ => none

def fieldName? : Json -> Option (Option String)
  | .null => some none
  | .string s => some (some s)
  | _ => none

mutual

/-- The node that a JSON value stands for. -/
def Node.ofJson? (source : List UInt8) : Json -> Option Node
  | .array [.string type, .whole named, field, start, stop, .array children] =>
    match fieldName? field, offset? start, offset? stop, Node.allOfJson? source children with
    | some field, some start, some stop, some children =>
      some ⟨type, named != 0, field, .ofSource source start stop, children⟩
    | _, _, _, _ => none
  | _ => none

def Node.allOfJson? (source : List UInt8) : List Json -> Option (List Node)
  | [] => some []
  | j :: js =>
    match Node.ofJson? source j, Node.allOfJson? source js with
    | some n, some ns => some (n :: ns)
    | _, _ => none

end

end Bindgen.Syntax

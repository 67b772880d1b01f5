import Bindgen.Text.Utf8

/-! # Syntax trees

A node of the tree of one declaration file: what it is, which field of its
parent it fills, where its text lies and the nodes inside it. Nothing is
assumed of a tree: any type may have any children, and extents need not nest.
-/

namespace Bindgen.Syntax

/-- A part of a source: its byte offsets, the line it starts on (the first is
1) and its text. -/
structure Extent where
  start : Nat
  stop : Nat
  line : Nat
  text : String
deriving DecidableEq

/-- The part of a source from byte `start` up to byte `stop`. Its line is one
more than the number of line feeds before it. -/
def Extent.ofSource (source : List UInt8) (start stop : Nat) : Extent where
  start := start
  stop := stop
  line := (source.take start).count 10 + 1
  text := Text.Utf8.decode ((source.take stop).drop start)

/-- A node; `named` tells a rule of the grammar from a bare token. -/
structure Node where
  type : String
  named : Bool
  field : Option String
  extent : Extent
  children : List Node

namespace Node

def text (n : Node) : String := n.extent.text

def line (n : Node) : Nat := n.extent.line

mutual

def size : Node -> Nat
  | ⟨_, _, _, _, children⟩ => sizeAll children + 1

def sizeAll : List Node -> Nat
  | [] => 0
  | n :: ns => n.size + sizeAll ns

end

theorem size_le_sizeAll {n : Node} {ns : List Node} (h : n ∈ ns) : n.size ≤ sizeAll ns := by
  induction ns with
  | nil => simp at h
  | cons m ms ih =>
    rw [sizeAll]
    rcases List.mem_cons.1 h with rfl | h
    · omega
    · have := ih h
      omega

/-- A child is smaller than its parent. -/
theorem size_lt_of_mem {child n : Node} (h : child ∈ n.children) : child.size < n.size := by
  obtain ⟨_, _, _, _, children⟩ := n
  have := size_le_sizeAll h
  rw [size]
  simp only at this
  omega

end Node

end Bindgen.Syntax

import Bindgen.Syntax.Node

/-! # Places in a syntax tree

The meaning of a node can depend on the node around it. A `Cursor` is a node
together with the type of its parent, and moving to a child keeps that up.
-/

namespace Bindgen.Syntax

/-- A node and the type of its parent, if it has one. -/
structure Cursor where
  parent : Option String
  node : Node

namespace Cursor

def root (n : Node) : Cursor := ⟨none, n⟩

def type (c : Cursor) : String := c.node.type

def text (c : Cursor) : String := c.node.text

def line (c : Cursor) : Nat := c.node.line

def size (c : Cursor) : Nat := c.node.size

/-- All children, bare tokens included. -/
def children (c : Cursor) : List Cursor :=
  c.node.children.map fun n => ⟨some c.node.type, n⟩

/-- The children that are no bare tokens and no comments. -/
def named (c : Cursor) : List Cursor :=
  c.children.filter fun child => child.node.named && child.type != "comment"

def field? (c : Cursor) (name : String) : Option Cursor :=
  c.children.find? fun child => child.node.field == some name

/-- Some child is of the given type; it usually is a bare token. -/
def hasToken (c : Cursor) (token : String) : Bool :=
  c.children.any fun child => child.type == token

/-- The text of the child that fills a field, or the empty text. -/
def fieldText (c : Cursor) (name : String) : String :=
  ((c.field? name).map text).getD ""

def fieldNamed (c : Cursor) (name : String) : List Cursor :=
  ((c.field? name).map named).getD []

theorem size_lt_of_mem_children {child c : Cursor} (h : child ∈ c.children) :
    child.size < c.size := by
  obtain ⟨n, hn, rfl⟩ := List.mem_map.1 h
  exact Node.size_lt_of_mem hn

theorem size_lt_of_mem_named {child c : Cursor} (h : child ∈ c.named) : child.size < c.size :=
  size_lt_of_mem_children (List.mem_filter.1 h).1

theorem size_lt_of_named_eq_cons {child c : Cursor} {rest : List Cursor}
    (h : c.named = child :: rest) : child.size < c.size :=
  size_lt_of_mem_named (h ▸ List.mem_cons_self)

theorem size_lt_of_field? {child c : Cursor} {name : String} (h : c.field? name = some child) :
    child.size < c.size :=
  size_lt_of_mem_children (List.mem_of_find?_eq_some h)

theorem size_lt_of_mem_fieldNamed {child c : Cursor} {name : String}
    (h : child ∈ c.fieldNamed name) : child.size < c.size := by
  unfold fieldNamed at h
  cases hf : c.field? name with
  | none => simp [hf] at h
  | some f =>
    simp only [hf, Option.map_some, Option.getD_some] at h
    have := size_lt_of_field? hf
    have := size_lt_of_mem_named h
    omega

end Cursor

end Bindgen.Syntax

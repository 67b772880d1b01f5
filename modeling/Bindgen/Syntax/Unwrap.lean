import Bindgen.Syntax.Kind

/-! # Wrappers

Nodes that only stand around what they are about: `export` and `declare`
around a statement, an annotation around a type, and a union nested in a
union. Each function here walks down and never leaves the tree it is given.
-/

namespace Bindgen.Syntax

/-- The modifiers that the wrappers of a statement carry. -/
structure Modifiers where
  declared : Bool
  exported : Bool
deriving DecidableEq

def Modifiers.none : Modifiers := ⟨false, false⟩

/-- What an ambient declaration can be about. -/
def isDeclarable (type : String) : Bool :=
  (Kind.ofDeclaration? type).isSome || type == "ambient_declaration" || type == "export_statement"

/-- The nodes that carry a colon and a type. -/
def isAnnotation (type : String) : Bool :=
  type == "type_annotation" || type == "omitting_type_annotation" ||
    type == "opting_type_annotation" || type == "adding_type_annotation"

namespace Cursor

/-- The statement inside an export statement, an ambient declaration or an
expression statement. -/
def wrapped? (c : Cursor) : Option Cursor :=
  if c.type == "export_statement" then c.field? "declaration"
  else if c.type == "ambient_declaration" then c.named.find? fun child => isDeclarable child.type
  else if c.type == "expression_statement" then
    c.named.find? fun child => child.type == "internal_module"
  else none

theorem size_lt_of_wrapped? {child c : Cursor} (h : c.wrapped? = some child) :
    child.size < c.size := by
  unfold wrapped? at h
  split at h
  · exact size_lt_of_field? h
  · split at h
    · exact size_lt_of_mem_named (List.mem_of_find?_eq_some h)
    · split at h
      · exact size_lt_of_mem_named (List.mem_of_find?_eq_some h)
      · simp at h

/-- The modifiers of one wrapper around a statement. An ambient declaration
counts whether or not a statement is found inside it. -/
def addModifier (c : Cursor) (m : Modifiers) : Modifiers :=
  if c.type == "ambient_declaration" then { m with declared := true }
  else if c.type == "export_statement" && c.wrapped?.isSome then { m with exported := true }
  else m

def unwrapStatement (c : Cursor) : Cursor × Modifiers :=
  match _h : c.wrapped? with
  | none => (c, c.addModifier .none)
  | some inner =>
    let (statement, modifiers) := inner.unwrapStatement
    (statement, c.addModifier modifiers)
termination_by c.size
decreasing_by exact size_lt_of_wrapped? _h

/-- The type inside all annotations around it. An annotation without a type in
it is left as it is. -/
def unwrapType (c : Cursor) : Cursor :=
  if isAnnotation c.type then
    match _h : c.named.getLast? with
    | none => c
    | some inner => inner.unwrapType
  else c
termination_by c.size
decreasing_by exact size_lt_of_mem_named (List.mem_of_getLast? _h)

/-- The alternatives of a union, with those of the unions directly inside it
in their place. -/
def flattenUnion (c : Cursor) : List Cursor :=
  c.named.attach.flatMap fun ⟨child, _h⟩ =>
    if child.type == "union_type" then child.flattenUnion else [child]
termination_by c.size
decreasing_by exact size_lt_of_mem_named _h

theorem flattenUnion_eq (c : Cursor) :
    c.flattenUnion = c.named.flatMap fun child =>
      if child.type == "union_type" then child.flattenUnion else [child] := by
  rw [flattenUnion]
  simp

theorem size_unwrapType_le (c : Cursor) : c.unwrapType.size ≤ c.size := by
  fun_induction unwrapType c with
  | case1 => exact Nat.le_refl _
  | case2 c _ inner h ih =>
    have := size_lt_of_mem_named (List.mem_of_getLast? h)
    omega
  | case3 => exact Nat.le_refl _

theorem size_unwrapStatement_le (c : Cursor) : c.unwrapStatement.1.size ≤ c.size := by
  fun_induction unwrapStatement c with
  | case1 => exact Nat.le_refl _
  | case2 c inner h statement modifiers heq ih =>
    have := size_lt_of_wrapped? h
    rw [heq] at ih
    simp only at ih ⊢
    omega

theorem size_lt_of_mem_flattenUnion {a c : Cursor} (h : a ∈ c.flattenUnion) : a.size < c.size := by
  fun_induction flattenUnion c with
  | case1 c ih =>
    obtain ⟨⟨child, hchild⟩, -, ha⟩ := List.mem_flatMap.1 h
    have hlt := size_lt_of_mem_named hchild
    simp only at ha
    split at ha
    · have := ih child hchild ha
      omega
    · rw [List.mem_singleton.1 ha]
      exact hlt

end Cursor

end Bindgen.Syntax

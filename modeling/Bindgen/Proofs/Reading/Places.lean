import Bindgen.Read.Statement

/-! # Places of a tree and faults in it

The places of a tree are its nodes with their parents. Whatever a reader looks
at is a place of the tree it was given, so that an error found below can be
blamed on a place of the whole tree.
-/

namespace Bindgen

namespace Syntax

mutual

def Node.places (parent : Option String) : Node -> List Cursor
  | ⟨type, named, field, extent, children⟩ =>
    ⟨parent, ⟨type, named, field, extent, children⟩⟩ :: Node.placesAll (some type) children

def Node.placesAll (parent : Option String) : List Node -> List Cursor
  | [] => []
  | n :: ns => n.places parent ++ Node.placesAll parent ns

end

namespace Cursor

def places (c : Cursor) : List Cursor :=
  c.node.places c.parent

theorem placesAll_eq (parent : Option String) (ns : List Node) :
    Node.placesAll parent ns = (ns.map fun n => (⟨parent, n⟩ : Cursor)).flatMap places := by
  induction ns with
  | nil => rfl
  | cons n ns ih => rw [Node.placesAll, ih, List.map_cons, List.flatMap_cons, places]

theorem places_eq (c : Cursor) : c.places = c :: c.children.flatMap places := by
  obtain ⟨parent, type, named, field, extent, children⟩ := c
  rw [places, Node.places, placesAll_eq, Cursor.children]

theorem mem_places_self (c : Cursor) : c ∈ c.places := by
  rw [places_eq]
  exact List.mem_cons_self

theorem mem_places_below {p child c : Cursor} (h : child ∈ c.children) (hp : p ∈ child.places) :
    p ∈ c.places := by
  rw [places_eq]
  exact List.mem_cons_of_mem c (List.mem_flatMap.mpr ⟨child, h, hp⟩)

theorem mem_places_trans {p q c : Cursor} (hq : q ∈ c.places) (hp : p ∈ q.places) :
    p ∈ c.places := by
  rw [places_eq] at hq
  rcases List.mem_cons.mp hq with rfl | hq
  · exact hp
  · obtain ⟨child, hchild, hq⟩ := List.mem_flatMap.mp hq
    have := size_lt_of_mem_children hchild
    exact mem_places_below hchild (mem_places_trans hq hp)
termination_by c.size

section

variable {p c : Cursor}

theorem mem_places_of_children (h : p ∈ c.children) : p ∈ c.places :=
  mem_places_below h p.mem_places_self

theorem mem_places_of_named (h : p ∈ c.named) : p ∈ c.places :=
  mem_places_of_children (List.mem_filter.mp h).1

theorem mem_places_of_field? {name : String} (h : c.field? name = some p) : p ∈ c.places :=
  mem_places_of_children (List.mem_of_find?_eq_some h)

theorem mem_places_of_fieldNamed {name : String} (h : p ∈ c.fieldNamed name) : p ∈ c.places := by
  unfold fieldNamed at h
  cases field : c.field? name with
  | none => simp [field] at h
  | some child =>
      rw [field, Option.map_some, Option.getD_some] at h
      exact mem_places_trans (mem_places_of_field? field) (mem_places_of_named h)

theorem mem_places_of_flattenUnion {p c : Cursor} (h : p ∈ c.flattenUnion) : p ∈ c.places := by
  rw [flattenUnion_eq] at h
  obtain ⟨child, hchild, hp⟩ := List.mem_flatMap.mp h
  have := size_lt_of_mem_named hchild
  split at hp
  · exact mem_places_trans (mem_places_of_named hchild) (mem_places_of_flattenUnion hp)
  · rw [List.mem_singleton.mp hp]
    exact mem_places_of_named hchild
termination_by c.size

theorem mem_places_of_wrapped? (h : c.wrapped? = some p) : p ∈ c.places := by
  unfold wrapped? at h
  split at h
  · exact mem_places_of_field? h
  · split at h
    · exact mem_places_of_named (List.mem_of_find?_eq_some h)
    · split at h
      · exact mem_places_of_named (List.mem_of_find?_eq_some h)
      · cases h

end

theorem unwrapType_mem_places (c : Cursor) : c.unwrapType ∈ c.places := by
  fun_induction unwrapType c with
  | case1 c => exact c.mem_places_self
  | case2 c _ inner h ih =>
      exact mem_places_trans (mem_places_of_named (List.mem_of_getLast? h)) ih
  | case3 c => exact c.mem_places_self

theorem unwrapStatement_mem_places (c : Cursor) : c.unwrapStatement.1 ∈ c.places := by
  fun_induction unwrapStatement c with
  | case1 c => exact c.mem_places_self
  | case2 c inner h statement modifiers heq ih =>
      rw [heq] at ih
      exact mem_places_trans (mem_places_of_wrapped? h) ih

end Cursor

end Syntax

open Syntax

section

variable {p c : Cursor}

theorem mem_places_of_parameters (h : p ∈ parameters c) : p ∈ c.places :=
  Cursor.mem_places_of_fieldNamed (List.mem_filter.mp h).1

theorem mem_places_of_result? (h : result? c = some p) : p ∈ c.places := by
  rcases Option.or_eq_some_iff.mp h with h | h
  · exact Cursor.mem_places_of_field? h
  · exact Cursor.mem_places_of_field? h.2

theorem mem_places_of_alternatives (h : p ∈ alternatives c) : p ∈ c.places :=
  Cursor.mem_places_of_flattenUnion (List.mem_filter.mp h).1

theorem mem_places_of_body? {isBody : String -> Bool} (h : body? c isBody = some p) :
    p ∈ c.places := by
  rcases Option.or_eq_some_iff.mp h with h | h
  · exact Cursor.mem_places_of_field? h
  · exact Cursor.mem_places_of_children (List.mem_of_find?_eq_some h.2)

theorem mem_places_of_aliasValue? (h : aliasValue? c = some p) : p ∈ c.places := by
  rcases Option.or_eq_some_iff.mp h with h | h
  · exact Cursor.mem_places_of_field? h
  · exact Cursor.mem_places_of_named (List.mem_of_getLast? h.2)

theorem mem_places_of_moduleStatements (h : p ∈ moduleStatements c) : p ∈ c.places := by
  unfold moduleStatements at h
  cases body : moduleBody? c with
  | none => simp [body] at h
  | some block =>
      rw [body, Option.map_some, Option.getD_some] at h
      have hblock : block ∈ c.places := by
        unfold moduleBody? at body
        split at body
        · exact Cursor.mem_places_of_children (List.mem_of_find?_eq_some body)
        · exact Cursor.mem_places_of_field? body
      exact Cursor.mem_places_trans hblock (Cursor.mem_places_of_named h)

end

/-! ## Faults -/

namespace Syntax

/-- A reference of blank text, a generic type without a name, or an entry of a
heritage clause without text. -/
def Cursor.isNameless (c : Cursor) : Bool :=
  (c.type == "type_identifier" || c.type == "nested_type_identifier") &&
      (Text.trim c.text).isEmpty ||
    c.type == "generic_type" && (c.fieldText "name").isEmpty ||
    c.inHeritageClause && c.text.isEmpty

/-- A type alias with nothing in it that can be its type. -/
def Cursor.isEmptyAlias (c : Cursor) : Bool :=
  c.type == "type_alias_declaration" && (c.field? "value").isNone && c.named.isEmpty

end Syntax

/-- What is wrong with the place is the cause of the error. -/
inductive ReadError.ArisesAt (path : String) (c : Cursor) : ReadError -> Prop
  | unnamed {e : ReadError} (nameless : c.isNameless = true)
      (site : e.site? = some (.ofCursor path c)) : ArisesAt path c e
  | emptyAlias (empty : c.isEmptyAlias = true) : ArisesAt path c .emptyAlias

/-- The error arises at or below the place. -/
def Fault (path : String) (c : Cursor) (e : ReadError) : Prop :=
  ∃ p ∈ c.places, e.ArisesAt path p

theorem Fault.here {path : String} {c : Cursor} {e : ReadError} (h : e.ArisesAt path c) :
    Fault path c e :=
  ⟨c, c.mem_places_self, h⟩

theorem Fault.below {path : String} {p c : Cursor} (hp : p ∈ c.places) {e : ReadError}
    (h : Fault path p e) : Fault path c e := by
  obtain ⟨q, hq, arises⟩ := h
  exact ⟨q, Cursor.mem_places_trans hp hq, arises⟩

/-! ## Kinds that tell a type -/

namespace Syntax

/-- A node of the given type can be of the kind, for the kinds that readers take
as a promise about the type. -/
def Kind.fits (type : String) : Kind -> Bool
  | .typeReference =>
    type == "type_identifier" || type == "nested_type_identifier" || type == "generic_type"
  | .typeAliasDeclaration => type == "type_alias_declaration"
  | .comment => type == "comment"
  | .expressionWithTypeArguments => false
  | _ => true

theorem Kind.fits_ofDeclaration? {type : String} {kind : Kind}
    (h : Kind.ofDeclaration? type = some kind) : kind.fits type = true := by
  unfold Kind.ofDeclaration? at h
  split at h <;> cases h <;> rfl

theorem Kind.fits_ofType? {type : String} {kind : Kind} (h : Kind.ofType? type = some kind) :
    kind.fits type = true := by
  unfold Kind.ofType? at h
  split at h <;> cases h <;> rfl

theorem Kind.fits_ofKeyword? (type text : String) :
    ((Kind.ofKeyword? text).getD .unknown).fits type = true := by
  unfold Kind.ofKeyword?
  split <;> rfl

namespace Cursor

theorem fits_methodKind (c : Cursor) (type : String) : c.methodKind.fits type = true := by
  unfold methodKind
  repeat' split
  all_goals rfl

theorem fits_exportKind (c : Cursor) (type : String) : c.exportKind.fits type = true := by
  unfold exportKind
  repeat' split
  all_goals rfl

theorem fits_ownKind (c : Cursor) : c.ownKind.fits c.type = true := by
  unfold ownKind
  split
  case h_1 declaration => exact Kind.fits_ofDeclaration? declaration
  case h_2 =>
      split
      · exact c.fits_methodKind c.type
      · split
        · exact c.fits_exportKind c.type
        · split
          · rfl
          · split
            · exact Kind.fits_ofKeyword? c.type _
            · split
              case h_1 type => exact Kind.fits_ofType? type
              case h_2 =>
                  repeat' split
                  all_goals rfl

theorem inHeritageClause_of_mem_named {c clause : Cursor} (h : c ∈ clause.named)
    (heritage : isHeritageClause clause.type = true) : c.inHeritageClause = true := by
  obtain ⟨node, -, rfl⟩ := List.mem_map.mp (List.mem_filter.mp h).1
  exact heritage

theorem ownKind_of_kind {c : Cursor} {kind : Kind} (h : c.kind = kind)
    (other : kind ≠ .expressionWithTypeArguments) : c.ownKind = kind := by
  unfold Cursor.kind at h
  split at h
  · exact absurd h.symm other
  · exact h

theorem fits_of_kind {c : Cursor} {kind : Kind} (h : c.kind = kind)
    (other : kind ≠ .expressionWithTypeArguments) : kind.fits c.type = true := by
  rw [← ownKind_of_kind h other]
  exact c.fits_ownKind

theorem inHeritageClause_of_kind {c : Cursor} (h : c.kind = .expressionWithTypeArguments) :
    c.inHeritageClause = true := by
  unfold kind at h
  split at h
  case isTrue clause => exact (Bool.and_eq_true_iff.mp clause).2
  case isFalse =>
      have fits := c.fits_ownKind
      rw [h] at fits
      cases fits

theorem outside_of_wrapped? {inner c : Cursor} (h : c.wrapped? = some inner) :
    inner.inHeritageClause = false := by
  have parent : ∀ {p : Cursor}, p ∈ c.children -> p.inHeritageClause = isHeritageClause c.type := by
    intro p hp
    obtain ⟨node, -, rfl⟩ := List.mem_map.mp hp
    rfl
  unfold wrapped? at h
  split at h
  case isTrue exported =>
      rw [parent (List.mem_of_find?_eq_some h), beq_iff_eq.mp exported]
      rfl
  case isFalse =>
      split at h
      case isTrue ambient =>
          rw [parent (List.mem_filter.mp (List.mem_of_find?_eq_some h)).1, beq_iff_eq.mp ambient]
          rfl
      case isFalse =>
          split at h
          case isTrue expression =>
              rw [parent (List.mem_filter.mp (List.mem_of_find?_eq_some h)).1,
                beq_iff_eq.mp expression]
              rfl
          case isFalse => cases h

/-- What stands in a wrapper stands in no heritage clause. -/
theorem unwrapStatement_cases (c : Cursor) :
    c.unwrapStatement.1 = c ∨ c.unwrapStatement.1.inHeritageClause = false := by
  fun_induction unwrapStatement c with
  | case1 c => exact .inl rfl
  | case2 c inner h statement modifiers heq ih =>
      rw [heq] at ih
      rcases ih with rfl | outside
      · exact .inr (outside_of_wrapped? h)
      · exact .inr outside

/-- Outside of heritage clauses a comment is one by its type. -/
theorem kind_eq_comment_iff {c : Cursor} (outside : c.inHeritageClause = false) :
    c.kind = .comment ↔ c.type = "comment" := by
  constructor
  · intro h
    exact beq_iff_eq.mp (fits_of_kind h nofun)
  · intro h
    have declaration : Kind.ofDeclaration? c.type = some .comment := by
      rw [h]
      rfl
    simp only [kind, outside, Bool.and_false, Bool.false_eq_true, if_false, ownKind, declaration]

end Cursor

end Syntax

end Bindgen

import Bindgen.Proofs.Faults
import Bindgen.Proofs.Reading.Accessors
import Bindgen.Proofs.Reading.Statements

/-! # The walk of the readers

Reading a file visits its statements, their members and inherited types, and the types in
them. The visits that are made can be told from the tree alone, and so can what a visit
records and whether it fails. The log of a reader is what its visits record, in their
order and up to the first one that fails.
-/

namespace Bindgen

open Syntax

/-! ## Visits -/

/-- What the readers stop at: a type, an element of a tuple, an inherited type, a member or
a statement. -/
inductive Visit where
  | type (c : Cursor)
  | element (c : Cursor)
  | heritage (c : Cursor)
  | member (c : Cursor)
  | statement (c : Cursor)

def elementType? (c : Cursor) : Option Cursor :=
  if c.type == "optional_type" || c.type == "rest_type" then c.named.head?
  else if isTupleMember c.type then c.field? "type"
  else some c

def paramTypes (c : Cursor) : List Cursor :=
  (parameters c).filterMap fun p => p.field? "type"

theorem map_paramTypes (c : Cursor) :
    (paramTypes c).map Visit.type =
      (parameters c).flatMap fun p => (p.field? "type").toList.map Visit.type := by
  rw [paramTypes, List.filterMap_eq_flatMap_toList, List.map_flatMap]

def signatureTypes (c : Cursor) : List Cursor :=
  paramTypes c ++ (result? c).toList

def memberTypes (c : Cursor) : List Cursor :=
  match c.kind with
  | .indexSignature =>
    if (c.field? "name").isNone then []
    else (c.field? "index_type").toList ++ (c.field? "type").toList
  | .methodSignature => signatureTypes c
  | .methodDeclaration => signatureTypes c
  | .propertySignature => (c.field? "type").toList
  | .propertyDeclaration => (c.field? "type").toList
  | .callSignature => signatureTypes c
  | .constructSignature => paramTypes c
  | .constructor => paramTypes c
  | .getAccessor => if c.hasToken "get" then (c.field? "return_type").toList else paramTypes c
  | .setAccessor => if c.hasToken "get" then (c.field? "return_type").toList else paramTypes c
  | _ => []

theorem memberTypes_of_accessor {c : Cursor} (accessor : isAccessor c.kind = true) :
    memberTypes c =
      if c.hasToken "get" then (c.field? "return_type").toList else paramTypes c := by
  unfold memberTypes
  split <;> simp_all [isAccessor]

def interfaceHeritage (c : Cursor) : List Cursor :=
  (c.named.filter fun clause => clause.type == "extends_type_clause").flatMap heritageEntries

/-- The visits to the places of a list, where `step` tells those to one place and whether
there was a visit before counts. -/
def visitsAfter (step : Bool -> Cursor -> List Visit) : Bool -> List Cursor -> List Visit
  | _, [] => []
  | seen, c :: cs => step seen c ++ visitsAfter step (seen || !(step seen c).isEmpty) cs

/-- The visits to an entry of a clause that a class extends types with. Type arguments count
only behind a type. -/
def extendsVisits (seen : Bool) (c : Cursor) : List Visit :=
  if c.kind == .expressionWithTypeArguments then [.heritage c]
  else if c.type == "type_arguments" && seen then c.named.map .type
  else []

def clauseVisits (seen : Bool) (clause : Cursor) : List Visit :=
  if clause.type == "implements_clause" then clause.named.map .heritage
  else if clause.type == "extends_clause" then visitsAfter extendsVisits seen clause.named
  else []

def classHeritage (c : Cursor) : List Visit :=
  match c.named.find? fun child => child.type == "class_heritage" with
  | none => []
  | some heritage => visitsAfter clauseVisits false heritage.named

def declarators (c : Cursor) : List Cursor :=
  c.named.filter fun child => child.type == "variable_declarator"

/-- The visits right inside a type without annotations around it. -/
def bareTypeParts (c : Cursor) : List Visit :=
  match c.kind with
  | .typeReference =>
    if c.type == "generic_type" then (c.fieldNamed "type_arguments").map .type else []
  | .arrayType => c.named.head?.toList.map .type
  | .unionType => (alternatives c).map .type
  | .tupleType => c.named.map .element
  | .functionType => (signatureTypes c).map .type
  | _ => []

/-- The visits right inside a statement without wrappers around it. -/
def bareStatementParts (c : Cursor) : List Visit :=
  if isTrivia c then []
  else
    match c.kind with
    | .moduleDeclaration => (moduleStatements c).map .statement
    | .interfaceDeclaration =>
      (interfaceHeritage c).map .heritage ++
        (memberNodes (body? c fun type => type == "interface_body" || type == "object_type")).map
          .member
    | .classDeclaration =>
      classHeritage c ++ (memberNodes (body? c fun type => type == "class_body")).map .member
    | .typeAliasDeclaration => (aliasValue? c).toList.map .type
    | .variableStatement => ((declarators c).head?.bind fun b => b.field? "type").toList.map .type
    | .functionDeclaration => (signatureTypes c).map .type
    | _ => []

namespace Visit

def cursor : Visit -> Cursor
  | .type c => c
  | .element c => c
  | .heritage c => c
  | .member c => c
  | .statement c => c

/-- The visits right inside a visit, in their order. -/
def parts : Visit -> List Visit
  | .type c => bareTypeParts c.unwrapType
  | .element c => (elementType? c).toList.map .type
  | .heritage c => (heritageArguments c).map .type
  | .member c => (memberTypes c).map .type
  | .statement c => bareStatementParts c.unwrapStatement.1

/-- An element may be a type itself, so that it weighs more than a type. -/
def weight : Visit -> Nat
  | .element c => 2 * c.size + 1
  | v => 2 * v.cursor.size

theorem weight_le (v : Visit) : v.weight ≤ 2 * v.cursor.size + 1 := by
  cases v <;> simp [weight, cursor]

theorem le_weight (v : Visit) : 2 * v.cursor.size ≤ v.weight := by
  cases v <;> simp [weight, cursor]

theorem weight_lt {p v : Visit} (h : p.cursor.size < v.cursor.size) : p.weight < v.weight := by
  have := p.weight_le
  have := v.le_weight
  omega

end Visit

/-! ### Visits go down the tree -/

section

variable {t c : Cursor}

theorem size_lt_of_mem_paramTypes (h : t ∈ paramTypes c) : t.size < c.size := by
  obtain ⟨p, hp, ht⟩ := List.mem_filterMap.mp h
  exact Nat.lt_trans (Cursor.size_lt_of_field? ht) (size_lt_of_mem_parameters hp)

theorem size_lt_of_mem_signatureTypes (h : t ∈ signatureTypes c) : t.size < c.size := by
  rcases List.mem_append.mp h with h | h
  · exact size_lt_of_mem_paramTypes h
  · exact size_lt_of_result? (Option.mem_toList.mp h)

theorem size_lt_of_mem_field? {name : String} (h : t ∈ (c.field? name).toList) :
    t.size < c.size :=
  Cursor.size_lt_of_field? (Option.mem_toList.mp h)

theorem size_lt_of_mem_memberTypes (h : t ∈ memberTypes c) : t.size < c.size := by
  unfold memberTypes at h
  split at h
  case h_1 =>
      split at h
      · cases h
      · rcases List.mem_append.mp h with h | h <;> exact size_lt_of_mem_field? h
  case h_2 | h_3 | h_6 => exact size_lt_of_mem_signatureTypes h
  case h_4 | h_5 => exact size_lt_of_mem_field? h
  case h_7 | h_8 => exact size_lt_of_mem_paramTypes h
  case h_9 | h_10 =>
      split at h
      · exact size_lt_of_mem_field? h
      · exact size_lt_of_mem_paramTypes h
  case h_11 => cases h

theorem size_le_of_elementType? (h : elementType? c = some t) : t.size ≤ c.size := by
  unfold elementType? at h
  split at h
  · exact Nat.le_of_lt (Cursor.size_lt_of_mem_named (List.mem_of_mem_head? h))
  · split at h
    · exact Nat.le_of_lt (Cursor.size_lt_of_field? h)
    · cases h
      exact Nat.le_refl _

theorem size_lt_of_mem_heritageArguments (h : t ∈ heritageArguments c) : t.size < c.size := by
  unfold heritageArguments at h
  split at h
  · exact Cursor.size_lt_of_mem_fieldNamed h
  · cases h

theorem size_lt_of_mem_interfaceHeritage (h : t ∈ interfaceHeritage c) : t.size < c.size := by
  obtain ⟨clause, inside, ht⟩ := List.mem_flatMap.mp h
  have outer := Cursor.size_lt_of_mem_named (List.mem_filter.mp inside).1
  have inner := Cursor.size_lt_of_mem_named (List.mem_filter.mp ht).1
  omega

theorem size_lt_of_body? {isBody : String -> Bool} (h : body? c isBody = some t) :
    t.size < c.size := by
  rcases Option.or_eq_some_iff.mp h with h | ⟨-, h⟩
  · exact Cursor.size_lt_of_field? h
  · exact Cursor.size_lt_of_mem_children (List.mem_of_find?_eq_some h)

theorem size_lt_of_mem_memberNodes {isBody : String -> Bool}
    (h : t ∈ memberNodes (body? c isBody)) : t.size < c.size := by
  have inside := (List.mem_filter.mp h).1
  cases body : body? c isBody with
  | none => simp [body] at inside
  | some b =>
      rw [body] at inside
      exact Nat.lt_trans (Cursor.size_lt_of_mem_named inside) (size_lt_of_body? body)

theorem size_lt_of_aliasValue? (h : aliasValue? c = some t) : t.size < c.size := by
  rcases Option.or_eq_some_iff.mp h with h | ⟨-, h⟩
  · exact Cursor.size_lt_of_field? h
  · exact Cursor.size_lt_of_mem_named (List.mem_of_getLast? h)

theorem size_lt_of_binding {b : Cursor} (hb : (declarators c).head? = some b)
    (ht : b.field? "type" = some t) : t.size < c.size := by
  have outer := Cursor.size_lt_of_mem_named (List.mem_filter.mp (List.mem_of_mem_head? hb)).1
  exact Nat.lt_trans (Cursor.size_lt_of_field? ht) outer

variable {v : Visit}

theorem mem_visitsAfter {step : Bool -> Cursor -> List Visit} {seen : Bool} {cs : List Cursor}
    (h : v ∈ visitsAfter step seen cs) : ∃ before, ∃ c ∈ cs, v ∈ step before c := by
  induction cs generalizing seen with
  | nil => cases h
  | cons c cs ih =>
      rcases List.mem_append.mp h with h | h
      · exact ⟨seen, c, List.mem_cons_self, h⟩
      · obtain ⟨before, d, hd, hv⟩ := ih h
        exact ⟨before, d, List.mem_cons_of_mem c hd, hv⟩

theorem size_le_of_mem_extendsVisits {seen : Bool} (h : v ∈ extendsVisits seen c) :
    v.cursor.size ≤ c.size := by
  unfold extendsVisits at h
  split at h
  · rw [List.mem_singleton.mp h]
    exact Nat.le_refl _
  · split at h
    · obtain ⟨t, ht, rfl⟩ := List.mem_map.mp h
      exact Nat.le_of_lt (Cursor.size_lt_of_mem_named ht)
    · cases h

theorem size_lt_of_mem_clauseVisits {seen : Bool} (h : v ∈ clauseVisits seen c) :
    v.cursor.size < c.size := by
  unfold clauseVisits at h
  split at h
  · obtain ⟨t, ht, rfl⟩ := List.mem_map.mp h
    exact Cursor.size_lt_of_mem_named ht
  · split at h
    · obtain ⟨before, d, hd, hv⟩ := mem_visitsAfter h
      exact Nat.lt_of_le_of_lt (size_le_of_mem_extendsVisits hv) (Cursor.size_lt_of_mem_named hd)
    · cases h

theorem size_lt_of_mem_classHeritage (h : v ∈ classHeritage c) : v.cursor.size < c.size := by
  unfold classHeritage at h
  split at h
  · cases h
  · rename_i heritage found
    obtain ⟨before, d, hd, hv⟩ := mem_visitsAfter h
    have := size_lt_of_mem_clauseVisits hv
    have := Cursor.size_lt_of_mem_named hd
    have := Cursor.size_lt_of_mem_named (List.mem_of_find?_eq_some found)
    omega

theorem size_lt_of_mem_bareTypeParts (h : v ∈ bareTypeParts c) : v.cursor.size < c.size := by
  unfold bareTypeParts at h
  split at h
  case h_1 =>
      split at h
      · obtain ⟨t, ht, rfl⟩ := List.mem_map.mp h
        exact Cursor.size_lt_of_mem_fieldNamed ht
      · cases h
  case h_2 =>
      obtain ⟨t, ht, rfl⟩ := List.mem_map.mp h
      exact Cursor.size_lt_of_mem_named (List.mem_of_mem_head? (Option.mem_toList.mp ht))
  case h_3 =>
      obtain ⟨t, ht, rfl⟩ := List.mem_map.mp h
      exact size_lt_of_mem_alternatives ht
  case h_4 =>
      obtain ⟨t, ht, rfl⟩ := List.mem_map.mp h
      exact Cursor.size_lt_of_mem_named ht
  case h_5 =>
      obtain ⟨t, ht, rfl⟩ := List.mem_map.mp h
      exact size_lt_of_mem_signatureTypes ht
  case h_6 => cases h

theorem size_lt_of_mem_bareStatementParts (h : v ∈ bareStatementParts c) :
    v.cursor.size < c.size := by
  unfold bareStatementParts at h
  split at h
  · cases h
  · split at h
    case h_1 =>
        obtain ⟨t, ht, rfl⟩ := List.mem_map.mp h
        exact size_lt_of_mem_moduleStatements ht
    case h_2 =>
        rcases List.mem_append.mp h with h | h
        · obtain ⟨t, ht, rfl⟩ := List.mem_map.mp h
          exact size_lt_of_mem_interfaceHeritage ht
        · obtain ⟨t, ht, rfl⟩ := List.mem_map.mp h
          exact size_lt_of_mem_memberNodes ht
    case h_3 =>
        rcases List.mem_append.mp h with h | h
        · exact size_lt_of_mem_classHeritage h
        · obtain ⟨t, ht, rfl⟩ := List.mem_map.mp h
          exact size_lt_of_mem_memberNodes ht
    case h_4 =>
        obtain ⟨t, ht, rfl⟩ := List.mem_map.mp h
        exact size_lt_of_aliasValue? (Option.mem_toList.mp ht)
    case h_5 =>
        obtain ⟨t, ht, rfl⟩ := List.mem_map.mp h
        obtain ⟨b, hb, hf⟩ := Option.bind_eq_some_iff.mp (Option.mem_toList.mp ht)
        exact size_lt_of_binding hb hf
    case h_6 =>
        obtain ⟨t, ht, rfl⟩ := List.mem_map.mp h
        exact size_lt_of_mem_signatureTypes ht
    case h_7 => cases h

end

namespace Visit

theorem weight_lt_of_mem_parts {p v : Visit} (h : p ∈ v.parts) : p.weight < v.weight := by
  cases v with
  | type c =>
      have := size_lt_of_mem_bareTypeParts h
      exact weight_lt (Nat.lt_of_lt_of_le this c.size_unwrapType_le)
  | element c =>
      obtain ⟨t, ht, rfl⟩ := List.mem_map.mp h
      have := size_le_of_elementType? (Option.mem_toList.mp ht)
      simp only [weight, cursor]
      omega
  | heritage c =>
      obtain ⟨t, ht, rfl⟩ := List.mem_map.mp h
      exact weight_lt (size_lt_of_mem_heritageArguments ht)
  | member c =>
      obtain ⟨t, ht, rfl⟩ := List.mem_map.mp h
      exact weight_lt (size_lt_of_mem_memberTypes ht)
  | statement c =>
      have := size_lt_of_mem_bareStatementParts h
      exact weight_lt (Nat.lt_of_lt_of_le this c.size_unwrapStatement_le)

/-- A visit with all visits inside it, in the order in which they are made. -/
def walk (v : Visit) : List Visit :=
  v :: v.parts.attach.flatMap fun ⟨p, _h⟩ => p.walk
termination_by v.weight
decreasing_by exact weight_lt_of_mem_parts _h

theorem walk_eq (v : Visit) : v.walk = v :: v.parts.flatMap walk := by
  rw [walk]
  simp

def ofFile (tree : Node) : List Visit :=
  ((Cursor.root tree).named.map .statement).flatMap walk

/-- Right behind an element comes its type. -/
def TypesFollow (visits : List Visit) : Prop :=
  ∀ i c t, visits[i]? = some (.element c) -> elementType? c = some t ->
    visits[i + 1]? = some (.type t)

theorem typesFollow_append {before after : List Visit} (hbefore : TypesFollow before)
    (hafter : TypesFollow after) : TypesFollow (before ++ after) := by
  intro i c t element type
  rcases Nat.lt_or_ge i before.length with inside | outside
  · rw [List.getElem?_append_left inside] at element
    have next := hbefore i c t element type
    have bound : i + 1 < before.length := (List.getElem?_eq_some_iff.mp next).choose
    rw [List.getElem?_append_left bound, next]
  · rw [List.getElem?_append_right outside] at element
    rw [List.getElem?_append_right (Nat.le_succ_of_le outside), Nat.succ_sub outside]
    exact hafter _ c t element type

theorem typesFollow_flatMap {visits : List Visit} (h : ∀ v ∈ visits, TypesFollow v.walk) :
    TypesFollow (visits.flatMap walk) := by
  induction visits with
  | nil => exact nofun
  | cons v visits ih =>
      obtain ⟨first, rest⟩ := List.forall_mem_cons.mp h
      exact typesFollow_append first (ih rest)

theorem typesFollow_walk (v : Visit) : TypesFollow v.walk := by
  have parts : TypesFollow (v.parts.flatMap walk) :=
    typesFollow_flatMap fun p hp =>
      have := weight_lt_of_mem_parts hp
      typesFollow_walk p
  rw [walk_eq]
  intro i c t element type
  cases i with
  | zero =>
      -- The visit itself is the element, so that its type is the only part.
      cases element
      have only : (Visit.element c).parts = [.type t] := by
        rw [Visit.parts, type]
        rfl
      rw [only, List.flatMap_singleton, walk_eq]
      rfl
  | succ i => exact parts i c t element type
termination_by v.weight

theorem typesFollow_ofFile (tree : Node) : TypesFollow (ofFile tree) :=
  typesFollow_flatMap fun v _ => typesFollow_walk v

end Visit

end Bindgen

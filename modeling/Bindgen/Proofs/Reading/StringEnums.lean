import Bindgen.Proofs.Reading.Unions

/-! # Aliases of string literals

An alias of a union is read as an enum exactly if some alternative is neither
`null` nor `undefined` and all those alternatives are string literals. Nothing
of the enum tells whether the union was optional.
-/

namespace Bindgen

open Syntax

/-- The string of a literal type, for those that have one. -/
def Syntax.Cursor.literalString? (c : Cursor) : Option Cursor :=
  if c.unwrapType.kind = .literalType then
    c.unwrapType.named.head?.filter fun literal => literal.type == "string"
  else none

/-- The text of the string of a literal type, without quotes. -/
def Syntax.Cursor.literalText? (c : Cursor) : Option String :=
  c.literalString?.map fun string => unquote string.text

/-! ## Types that are read as literals -/

theorem literal?_plainType? {kind : Kind} {type : Decl} (h : plainType? kind = some type) :
    type.literal? = none := by
  unfold plainType? at h
  split at h <;> cases h <;> rfl

theorem yields_otherType_literal? (path : String) (c : Cursor) :
    (readOtherType path c).Yields fun d => d.literal? = none := by
  unfold readOtherType
  split
  case h_1 type plain => exact Traced.ends_done (literal?_plainType? plain)
  case h_2 =>
      split
      · exact Traced.ends_note_bind (Traced.ends_done rfl)
      · exact Traced.ends_note_bind (Traced.ends_done rfl)

theorem yields_plainReference_literal? (path : String) (c : Cursor) :
    (readPlainReference path c).Yields fun d => d.literal? = none := by
  unfold readPlainReference
  split
  · exact Traced.ends_fail trivial
  · exact Traced.ends_done rfl

/-- Only literal types are read to literals. -/
theorem yields_bareType_literal? (path : String) {c : Cursor} (other : c.kind ≠ .literalType) :
    (readBareType path c).Yields fun d => d.literal? = none := by
  rw [readBareType]
  split
  case h_1 =>
      split
      · split
        · exact Traced.ends_fail trivial
        · exact Traced.yields_bind fun _ => Traced.ends_done rfl
      · exact yields_plainReference_literal? path c
  case h_2 =>
      split
      · exact Traced.ends_note_bind (Traced.ends_done rfl)
      · exact Traced.yields_bind fun _ => Traced.ends_done rfl
  case h_3 => exact Traced.yields_bind fun _ => Traced.ends_done rfl
  case h_4 => exact Traced.yields_bind fun _ => Traced.ends_done rfl
  case h_5 =>
      exact Traced.yields_bind fun _ => Traced.yields_bind fun _ => Traced.ends_done rfl
  case h_6 literal => exact absurd literal other
  case h_7 => exact yields_otherType_literal? path c

theorem readType_of_literalType (path : String) {c : Cursor}
    (kind : c.unwrapType.kind = .literalType) :
    readType path c = .done (readLiteral c.unwrapType) := by
  rw [readType, readBareType, kind]

theorem literal?_readLiteral (c : Cursor) :
    (readLiteral c).literal? =
      (c.named.head?.filter fun literal => literal.type == "string").map
        fun string => unquote string.text := by
  unfold readLiteral
  cases c.named.head? with
  | none => rfl
  | some literal =>
      by_cases string : literal.type == "string" <;>
        simp [Option.filter, string, Decl.literal?, Decl.obj]

/-- A type is read to a literal exactly if it is a literal type of a string. -/
theorem literal?_of_readType {path : String} {c : Cursor} {d : Decl}
    (h : (readType path c).outcome = .ok d) : d.literal? = c.literalText? := by
  unfold Cursor.literalText? Cursor.literalString?
  split
  case isTrue kind =>
      rw [readType_of_literalType path kind, Traced.outcome_done] at h
      rw [← Except.ok.inj h, literal?_readLiteral]
  case isFalse other =>
      rw [readType] at h
      exact (yields_bareType_literal? path other).ok d h

theorem Decl.literal?_eq_some_iff {d : Decl} {text : String} :
    d.literal? = some text ↔ d = .literal text := by
  cases d <;> simp [Decl.literal?]

theorem readType_of_literalText? (path : String) {c : Cursor} {text : String}
    (h : c.literalText? = some text) : (readType path c).outcome = .ok (.literal text) := by
  unfold Cursor.literalText? Cursor.literalString? at h
  split at h
  case isTrue kind =>
      rw [← literal?_readLiteral] at h
      rw [readType_of_literalType path kind, Traced.outcome_done,
        Decl.literal?_eq_some_iff.mp h]
  case isFalse => cases h

/-! ## Unions of literals -/

theorem literals?_eq_some_iff {ds : List Decl} {texts : List String} :
    literals? ds = some texts ↔ ds = texts.map .literal := by
  induction ds generalizing texts with
  | nil => cases texts <;> simp [literals?]
  | cons d ds ih =>
      rw [literals?]
      constructor
      · intro h
        split at h
        case h_1 text rest literal others =>
            cases h
            rw [List.map_cons, ← ih.mp others, Decl.literal?_eq_some_iff.mp literal]
        case h_2 => cases h
      · intro h
        cases texts with
        | nil => cases h
        | cons text rest =>
            obtain ⟨rfl, others⟩ := List.cons.inj h
            rw [ih.mpr others]
            rfl

theorem literalUnion?_eq_some_iff {d : Decl} {texts : List String} :
    literalUnion? d = some texts ↔
      texts ≠ [] ∧ ∃ optional, d = .union optional (texts.map .literal) := by
  unfold literalUnion?
  split
  case h_1 optional first rest =>
      rw [literals?_eq_some_iff]
      constructor
      · intro h
        refine ⟨?_, optional, by rw [h]⟩
        rintro rfl
        cases h
      · rintro ⟨-, _, h⟩
        exact (Decl.union.inj h).2
  case h_2 other =>
      refine ⟨nofun, ?_⟩
      rintro ⟨nonempty, optional, rfl⟩
      cases texts with
      | nil => exact absurd rfl nonempty
      | cons text texts => exact absurd rfl (other optional _ _)

/-- Lists that agree under two functions agree under two others that follow
from them. -/
theorem map_eq_map_of_agree {α β γ δ : Type} {f : α -> γ} {g : β -> γ} {f' : α -> δ} {g' : β -> δ}
    {as : List α} {bs : List β} (h : as.map f = bs.map g)
    (agree : ∀ a b, f a = g b -> f' a = g' b) : as.map f' = bs.map g' := by
  induction as generalizing bs with
  | nil =>
      cases bs with
      | nil => rfl
      | cons b bs => cases h
  | cons a as ih =>
      cases bs with
      | nil => cases h
      | cons b bs =>
          obtain ⟨first, rest⟩ := List.cons.inj h
          rw [List.map_cons, List.map_cons, agree a b first, ih rest]

theorem exists_map_eq_map {α β γ : Type} {f : α -> γ} {g : β -> γ} {as : List α}
    (h : ∀ a ∈ as, ∃ b, f a = g b) : ∃ bs : List β, as.map f = bs.map g := by
  induction as with
  | nil => exact ⟨[], rfl⟩
  | cons a as ih =>
      obtain ⟨⟨b, first⟩, rest⟩ := List.forall_mem_cons.mp h
      obtain ⟨bs, later⟩ := ih rest
      exact ⟨b :: bs, by rw [List.map_cons, List.map_cons, first, later]⟩

/-- A union is read to literals exactly if its alternatives are string literals,
`null` and `undefined` aside. -/
theorem readUnion_literals_iff {path : String} {c : Cursor} {optional : Bool}
    {texts : List String} :
    (readUnion path c).outcome = .ok (.union optional (texts.map .literal)) ↔
      optional = c.flattenUnion.any Cursor.isNullish ∧
      ∃ all, (alternatives c).map Cursor.literalText? = all.map some ∧
        FirstOccurrences all texts := by
  have inj : Function.Injective Decl.literal := fun _ _ => Decl.literal.inj
  rw [readUnion_eq_ok_iff]
  constructor
  · rintro ⟨types, kept, read, first, same⟩
    obtain ⟨rfl, rfl⟩ := Decl.union.inj same
    have literals : ∀ t ∈ types, ∃ text, t = Decl.literal text := by
      intro t ht
      obtain ⟨text, -, rfl⟩ := List.mem_map.mp ((first.mem t).mpr ht)
      exact ⟨text, rfl⟩
    obtain ⟨all, same⟩ := exists_map_eq_map literals
    rw [List.map_id'] at same
    subst same
    refine ⟨rfl, all, ?_, (FirstOccurrences.map_iff inj).mp first⟩
    rw [List.map_map] at read
    exact map_eq_map_of_agree read fun a text h => (literal?_of_readType h).symm
  · rintro ⟨rfl, all, literals, first⟩
    refine ⟨all.map .literal, texts.map .literal, ?_, (FirstOccurrences.map_iff inj).mpr first, rfl⟩
    rw [List.map_map]
    exact map_eq_map_of_agree literals fun a text h => readType_of_literalText? path h

/-! ## Aliases -/

section

variable {path : String} {c u : Cursor}

def aliasEnum (c : Cursor) (texts : List String) : Enum :=
  ⟨c.fieldText "name", texts.map fun text => ⟨text, .text, none⟩⟩

/-- What an alias of a union is read to. -/
theorem readAlias_eq_ok_iff {d : Decl} (value : (aliasValue? c).map Cursor.unwrapType = some u)
    (union : u.kind = .unionType) :
    (readAlias path c).outcome = .ok d ↔
      ∃ type, (readUnion path u).outcome = .ok type ∧
        ((∃ texts, literalUnion? type = some texts ∧ d = .enum (aliasEnum c texts)) ∨
          literalUnion? type = none ∧
            d = .typeAlias ⟨c.fieldText "name", type, readTypeParams c⟩) := by
  obtain ⟨v, found, rfl⟩ := Option.map_eq_some_iff.mp value
  rw [readAlias, found]
  simp only
  rw [readType, readBareType_of_unionType path union]
  constructor
  · intro h
    obtain ⟨type, read, h⟩ := Traced.ok_of_bind h
    refine ⟨type, read, ?_⟩
    split at h
    case h_1 texts literals =>
        cases h
        exact .inl ⟨texts, literals, rfl⟩
    case h_2 other =>
        cases h
        exact .inr ⟨other, rfl⟩
  · rintro ⟨type, read, ⟨texts, literals, rfl⟩ | ⟨other, rfl⟩⟩
    · rw [Traced.outcome_bind read, literals]
      rfl
    · rw [Traced.outcome_bind read, other]
      rfl

theorem readAlias_eq_enum_iff {e : Enum} (value : (aliasValue? c).map Cursor.unwrapType = some u)
    (union : u.kind = .unionType) :
    (readAlias path c).outcome = .ok (.enum e) ↔
      ∃ all texts, all ≠ [] ∧ (alternatives u).map Cursor.literalText? = all.map some ∧
        FirstOccurrences all texts ∧ e = aliasEnum c texts := by
  rw [readAlias_eq_ok_iff value union]
  constructor
  · rintro ⟨type, read, ⟨texts, literals, same⟩ | ⟨-, other⟩⟩
    · obtain ⟨nonempty, optional, rfl⟩ := literalUnion?_eq_some_iff.mp literals
      obtain ⟨-, all, alternatives, first⟩ := readUnion_literals_iff.mp read
      refine ⟨all, texts, ?_, alternatives, first, Decl.enum.inj same⟩
      rintro rfl
      exact nonempty (first.unique FirstOccurrences.nil)
    · cases other
  · rintro ⟨all, texts, nonempty, alternatives, first, rfl⟩
    have read : (readUnion path u).outcome = _ :=
      readUnion_literals_iff.mpr ⟨rfl, all, alternatives, first⟩
    refine ⟨_, read, .inl ⟨texts, literalUnion?_eq_some_iff.mpr ⟨?_, _, rfl⟩, rfl⟩⟩
    rintro rfl
    obtain ⟨text, htext⟩ := List.exists_mem_of_ne_nil all nonempty
    exact nomatch (first.mem text).mpr htext

theorem readAlias_isEnum_iff (path : String)
    (value : (aliasValue? c).map Cursor.unwrapType = some u)
    (union : u.kind = .unionType) :
    (∃ e, (readAlias path c).outcome = .ok (.enum e)) ↔
      alternatives u ≠ [] ∧ ∀ a ∈ alternatives u, a.literalString?.isSome = true := by
  simp only [readAlias_eq_enum_iff value union]
  constructor
  · rintro ⟨e, all, texts, nonempty, literals, -, -⟩
    refine ⟨?_, fun a ha => ?_⟩
    · intro none
      rw [none, List.map_nil, eq_comm, List.map_eq_nil_iff] at literals
      exact nonempty literals
    · have text : a.literalText? ∈ all.map some := literals ▸ List.mem_map_of_mem ha
      obtain ⟨text, -, same⟩ := List.mem_map.mp text
      rw [← Option.isSome_map, ← Cursor.literalText?, ← same]
      rfl
  · rintro ⟨nonempty, literals⟩
    have texts : ∀ a ∈ alternatives u, ∃ text, a.literalText? = some text := by
      intro a ha
      obtain ⟨string, found⟩ := Option.isSome_iff_exists.mp (literals a ha)
      exact ⟨unquote string.text, by rw [Cursor.literalText?, found]; rfl⟩
    obtain ⟨all, same⟩ := exists_map_eq_map texts
    obtain ⟨texts, first⟩ := FirstOccurrences.exists_of all
    refine ⟨_, all, texts, ?_, same, first, rfl⟩
    rintro rfl
    exact nonempty (List.map_eq_nil_iff.mp same)

theorem mem_alternatives {a : Cursor} :
    a ∈ alternatives u ↔ a ∈ u.flattenUnion ∧ a.isNullish = false := by
  rw [alternatives, List.mem_filter, Bool.not_eq_true']

/-- An alias of a union is an enum exactly if one alternative or more is neither
`null` nor `undefined` and all those are string literals; its cases are their
texts in order of first occurrence. So for a union that is not optional all
alternatives count, and for an optional one the option is lost. If the alias is
no enum, it has the union with its option. -/
theorem alias_read_as_enum_iff (path : String) {c u : Cursor}
    (value : (aliasValue? c).map Cursor.unwrapType = some u) (union : u.kind = .unionType) :
    ((∃ e, (readAlias path c).outcome = .ok (.enum e)) ↔
      (∃ a ∈ u.flattenUnion, a.isNullish = false) ∧
        ∀ a ∈ u.flattenUnion, a.isNullish = false -> a.literalString?.isSome = true) ∧
    ((∀ a ∈ u.flattenUnion, a.isNullish = false) ->
      ((∃ e, (readAlias path c).outcome = .ok (.enum e)) ↔
        u.flattenUnion ≠ [] ∧ ∀ a ∈ u.flattenUnion, a.literalString?.isSome = true)) ∧
    (∀ e, (readAlias path c).outcome = .ok (.enum e) ->
      ∃ all texts, (u.flattenUnion.filter fun a => !a.isNullish).map Cursor.literalText? =
          all.map some ∧
        FirstOccurrences all texts ∧ e = aliasEnum c texts) ∧
    ∀ d, (readAlias path c).outcome = .ok d -> (∀ e, d ≠ .enum e) ->
      ∃ kept, d = .typeAlias ⟨c.fieldText "name",
        .union (u.flattenUnion.any Cursor.isNullish) kept, readTypeParams c⟩ := by
  have isEnum := readAlias_isEnum_iff path value union
  refine ⟨?_, ?_, ?_, ?_⟩
  · have some : alternatives u ≠ [] ↔ ∃ a ∈ u.flattenUnion, a.isNullish = false := by
      simp only [← mem_alternatives]
      exact ⟨List.exists_mem_of_ne_nil _, fun ⟨_, ha⟩ => List.ne_nil_of_mem ha⟩
    simp only [isEnum, some, mem_alternatives, and_imp]
  · intro required
    have all : alternatives u = u.flattenUnion := List.filter_eq_self.mpr fun a ha => by
      rw [required a ha, Bool.not_false]
    rw [isEnum, all]
  · intro e h
    obtain ⟨all, texts, -, literals, first, same⟩ := (readAlias_eq_enum_iff value union).mp h
    exact ⟨all, texts, literals, first, same⟩
  · intro d h other
    obtain ⟨type, read, ⟨texts, -, rfl⟩ | ⟨-, rfl⟩⟩ := (readAlias_eq_ok_iff value union).mp h
    · exact absurd rfl (other _)
    · obtain ⟨types, kept, -, -, rfl⟩ := readUnion_eq_ok_iff.mp read
      exact ⟨kept, rfl⟩

end

def stringType (text : String) : Node :=
  spelled "literal_type" none 1 text [spelled "string" none 1 text []]

/-- An alias `Side` of the union of `"left"`, `"right"` and a third type. -/
def sideAlias (third : Node) : Cursor :=
  .root (spelled "type_alias_declaration" none 1 "" [
    spelled "type_identifier" (some "name") 1 "Side" [],
    spelled "union_type" (some "value") 1 "" [
      spelled "union_type" none 1 "" [stringType "\"left\"", stringType "\"right\""],
      third]])

def sideUnion (third : Node) : Cursor :=
  ⟨some "type_alias_declaration", spelled "union_type" (some "value") 1 "" [
    spelled "union_type" none 1 "" [stringType "\"left\"", stringType "\"right\""],
    third]⟩

theorem aliasValue?_sideAlias (third : Node) :
    (aliasValue? (sideAlias third)).map Cursor.unwrapType = some (sideUnion third) := by
  have found : aliasValue? (sideAlias third) = some (sideUnion third) := rfl
  rw [found, Option.map_some, unwrapType_of_union_type rfl]

theorem sideAlias_read_as_enum :
    (aliasValue? (sideAlias (stringType "'left'"))).map Cursor.unwrapType =
      some (sideUnion (stringType "'left'")) ∧
    (sideUnion (stringType "'left'")).kind = .unionType ∧
    (∀ a ∈ (sideUnion (stringType "'left'")).flattenUnion,
      a.isNullish = false ∧ a.literalString?.isSome = true) ∧
    ∃ e, (readAlias "sides.d.ts" (sideAlias (stringType "'left'"))).outcome = .ok (.enum e) ∧
      ∃ all texts, all = ["left", "right", "left"] ∧ FirstOccurrences all texts ∧
        e = ⟨"Side", texts.map fun text => ⟨text, .text, none⟩⟩ := by
  have value := aliasValue?_sideAlias (stringType "'left'")
  have union : (sideUnion (stringType "'left'")).kind = .unionType := by decide
  have strings : ∀ a ∈ (sideUnion (stringType "'left'")).flattenUnion,
      a.isNullish = false ∧ a.literalString?.isSome = true := by
    have all : (sideUnion (stringType "'left'")).flattenUnion.all
        (fun a => !a.isNullish && a.literalString?.isSome) = true := by
      decide +kernel
    simpa using all
  obtain ⟨-, isEnum, cases, -⟩ := alias_read_as_enum_iff "sides.d.ts" value union
  have nonempty : (sideUnion (stringType "'left'")).flattenUnion ≠ [] :=
    List.isEmpty_eq_false_iff.mp (by decide +kernel)
  have texts : (alternatives (sideUnion (stringType "'left'"))).map Cursor.literalText? =
      ["left", "right", "left"].map some := by
    decide +kernel
  obtain ⟨e, read⟩ := (isEnum fun a ha => (strings a ha).1).mpr
    ⟨nonempty, fun a ha => (strings a ha).2⟩
  obtain ⟨all, kept, literals, first, rfl⟩ := cases e read
  have same : all = ["left", "right", "left"] :=
    List.map_injective_iff.mpr (fun _ _ => Option.some.inj) (literals.symm.trans texts)
  exact ⟨value, union, strings, _, read, all, kept, same, first, rfl⟩

/-- The enum of an optional union has no place for `null`, which is no string
literal. -/
theorem optionalSide_read_as_enum :
    (readAlias "sides.d.ts" (sideAlias (spelled "literal_type" none 1 "null"
        [spelled "null" none 1 "null" []]))).outcome =
      .ok (.enum ⟨"Side", [⟨"left", .text, none⟩, ⟨"right", .text, none⟩]⟩) ∧
    ∃ a ∈ (sideUnion (spelled "literal_type" none 1 "null"
        [spelled "null" none 1 "null" []])).flattenUnion,
      a.isNullish = true ∧ a.literalString?.isSome = false := by
  refine ⟨ok_of_toOption (by decide +kernel), ?_⟩
  have null : (sideUnion (spelled "literal_type" none 1 "null"
      [spelled "null" none 1 "null" []])).flattenUnion.any
        (fun a => a.isNullish && a.literalString?.isNone) = true := by
    decide +kernel
  obtain ⟨a, ha, null⟩ := List.any_eq_true.mp null
  simp only [Bool.and_eq_true, Option.isNone_iff_eq_none] at null
  exact ⟨a, ha, null.1, by rw [null.2]; rfl⟩

end Bindgen

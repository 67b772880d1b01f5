import Bindgen.Proofs.OneLine.Texts
import Bindgen.Proofs.Reading.Declarations

/-! # Lines through reading

The readers copy texts of the source into declarations: names, patterns of
parameters, references, inherited types, string literals, and the cases and
numbers of enums. `Cursor.OneLine` lists what is copied at a place. If none of
it has a line feed in it, at any place of a tree, then all parts of what is
read from the tree are on one line.
-/

namespace Bindgen

open Syntax Text

def typeParamName (c : Cursor) : String :=
  (((c.field? "name").or c.named.head?).map Cursor.text).getD ""

def referenceName (c : Cursor) : String :=
  String.ofList ((Text.trim c.text).toList.takeWhile (· != '.'))

def isInheritedType (c : Cursor) : Bool :=
  c.kind == .expressionWithTypeArguments || c.parent == some "implements_clause"

theorem isInheritedType_of_kind {c : Cursor} (h : (c.kind == .expressionWithTypeArguments) = true) :
    isInheritedType c = true := by
  rw [isInheritedType, h, Bool.true_or]

/-- What the readers copy at a place is on one line. -/
structure Syntax.Cursor.OneLine (c : Cursor) : Prop where
  name : Text.OneLine (c.fieldText "name")
  typeParam : c.type = "type_parameter" -> Text.OneLine (typeParamName c)
  param : isParameter c.type = true -> Text.OneLine (patternText (paramPattern? c))
  reference : c.kind = .typeReference -> c.type ≠ "generic_type" -> Text.OneLine (referenceName c)
  inherited : isInheritedType c = true -> Text.OneLine (heritageName c)
  literal : c.kind = .literalType -> ∀ l ∈ c.named.head?, l.type = "string" -> Text.OneLine l.text
  enumCase : c.kind = .enumDeclaration -> ∀ m ∈ c.fieldNamed "body",
    m.type ≠ "enum_assignment" -> Text.OneLine m.text
  enumValue : c.type = "enum_assignment" -> ∀ v ∈ c.field? "value",
    v.type = "number" -> Text.OneLine v.text

instance (c : Cursor) : Decidable c.OneLine :=
  decidable_of_iff
    (Text.OneLine (c.fieldText "name") ∧
      (c.type = "type_parameter" -> Text.OneLine (typeParamName c)) ∧
      (isParameter c.type = true -> Text.OneLine (patternText (paramPattern? c))) ∧
      (c.kind = .typeReference -> c.type ≠ "generic_type" -> Text.OneLine (referenceName c)) ∧
      (isInheritedType c = true -> Text.OneLine (heritageName c)) ∧
      (c.kind = .literalType -> ∀ l ∈ c.named.head?, l.type = "string" -> Text.OneLine l.text) ∧
      (c.kind = .enumDeclaration -> ∀ m ∈ c.fieldNamed "body",
        m.type ≠ "enum_assignment" -> Text.OneLine m.text) ∧
      (c.type = "enum_assignment" -> ∀ v ∈ c.field? "value",
        v.type = "number" -> Text.OneLine v.text))
    ⟨fun ⟨name, typeParam, param, reference, inherited, literal, enumCase, enumValue⟩ =>
        ⟨name, typeParam, param, reference, inherited, literal, enumCase, enumValue⟩,
      fun ⟨name, typeParam, param, reference, inherited, literal, enumCase, enumValue⟩ =>
        ⟨name, typeParam, param, reference, inherited, literal, enumCase, enumValue⟩⟩

def Syntax.Cursor.AllOneLine (c : Cursor) : Prop :=
  ∀ p ∈ c.places, p.OneLine

theorem Syntax.Cursor.AllOneLine.here {c : Cursor} (h : c.AllOneLine) : c.OneLine :=
  h c c.mem_places_self

theorem Syntax.Cursor.AllOneLine.below {p c : Cursor} (h : c.AllOneLine) (hp : p ∈ c.places) :
    p.AllOneLine :=
  fun q hq => h q (Cursor.mem_places_trans hp hq)

/-! ## Parts put together -/

section

variable {P : Decl -> Prop}

theorem Decl.every_function {s : Signature} (self : P (.function s))
    (typeParams : ∀ p ∈ s.typeParams, p.Every P) (params : ∀ p ∈ s.params, (Decl.param p).Every P)
    (result : s.result.Every P) : (Decl.function s).Every P := by
  refine Decl.every_iff.mpr ⟨self, List.forall_mem_append.mpr ⟨?_, ?_⟩⟩
  · exact List.forall_mem_append.mpr ⟨typeParams, List.forall_mem_map.mpr params⟩
  · exact List.forall_mem_singleton.mpr result

theorem Decl.every_interface {i : Interface} (self : P (.interface i))
    (typeParams : ∀ p ∈ i.typeParams, p.Every P) (inherits : ∀ t ∈ i.inherits, t.Every P)
    (members : ∀ m ∈ i.members, m.Every P) : (Decl.interface i).Every P := by
  refine Decl.every_iff.mpr ⟨self, List.forall_mem_append.mpr ⟨?_, members⟩⟩
  exact List.forall_mem_append.mpr ⟨typeParams, inherits⟩

end

theorem Decl.every_param_oneLine {p : Param} (name : Text.OneLine p.name)
    (type : p.type.Every Decl.OneLine) : (Decl.param p).Every Decl.OneLine :=
  Decl.every_iff.mpr
    ⟨List.forall_mem_singleton.mpr name, List.forall_mem_singleton.mpr type⟩

theorem Decl.every_property_oneLine {p : Property}
    (texts : ∀ s ∈ p.name :: p.emit.toList, Text.OneLine s)
    (index : ∀ i, p.index = some i -> (Decl.param i).Every Decl.OneLine)
    (type : p.type.Every Decl.OneLine) : (Decl.property p).Every Decl.OneLine := by
  refine Decl.every_iff.mpr ⟨texts, List.forall_mem_append.mpr ⟨?_, ?_⟩⟩
  · intro c hc
    obtain ⟨i, hi, rfl⟩ := Option.map_eq_some_iff.mp (Option.mem_toList.mp hc)
    exact index i hi
  · exact List.forall_mem_singleton.mpr type

theorem Decl.every_generic_oneLine {name : String} {arguments : List Decl}
    (hname : Text.OneLine name) (hargs : ∀ a ∈ arguments, a.Every Decl.OneLine) :
    (Decl.generic (.named name) arguments).Every Decl.OneLine :=
  Decl.every_iff.mpr ⟨nofun, List.forall_mem_cons.mpr ⟨Decl.every_named_oneLine hname, hargs⟩⟩

theorem Decl.oneLine_of_empty {d : Decl} (texts : d.texts = []) (children : d.children = []) :
    d.Every Decl.OneLine := by
  refine Decl.every_iff.mpr ⟨?_, ?_⟩
  · rw [Decl.OneLine, texts]
    exact nofun
  · rw [children]
    exact nofun

theorem Decl.every_obj_oneLine : Decl.obj.Every Decl.OneLine :=
  Decl.every_named_oneLine (by decide)

/-! ## Types -/

theorem oneLine_plainType? {kind : Kind} {type : Decl} (h : plainType? kind = some type) :
    type.Every Decl.OneLine := by
  unfold plainType? at h
  split at h <;> cases h
  case h_13 => exact Decl.oneLine_of_empty rfl rfl
  all_goals exact Decl.every_named_oneLine (by decide)

section

variable (path : String) {c : Cursor}

theorem yields_otherType : (readOtherType path c).Yields (Decl.Every Decl.OneLine) := by
  unfold readOtherType
  split
  case h_1 type plain => exact Traced.ends_done (oneLine_plainType? plain)
  case h_2 =>
      split
      · exact Traced.ends_note_bind (Traced.ends_done Decl.every_obj_oneLine)
      · exact Traced.ends_note_bind (Traced.ends_done (Decl.oneLine_of_empty rfl rfl))

theorem yields_plainReference (h : c.OneLine) (kind : c.kind = .typeReference)
    (plain : c.type ≠ "generic_type") :
    (readPlainReference path c).Yields (Decl.Every Decl.OneLine) := by
  unfold readPlainReference
  split
  case h_1 => exact Traced.ends_fail trivial
  case h_2 => exact Traced.ends_done (Decl.every_named_oneLine (h.reference kind plain))

theorem oneLine_readLiteral (h : c.OneLine) (kind : c.kind = .literalType) :
    (readLiteral c).Every Decl.OneLine := by
  unfold readLiteral
  split
  case h_1 literal first =>
      split
      case isTrue string =>
          have text := h.literal kind literal first (beq_iff_eq.mp string)
          exact Decl.every_iff.mpr ⟨List.forall_mem_singleton.mpr text.unquote, nofun⟩
      case isFalse => exact Decl.every_obj_oneLine
  case h_2 => exact Decl.every_obj_oneLine

theorem oneLine_readTypeParams (h : c.AllOneLine) :
    ∀ p ∈ readTypeParams c, p.Every Decl.OneLine := by
  intro p hp
  obtain ⟨node, hnode, rfl⟩ := List.mem_map.mp hp
  obtain ⟨hnode, type⟩ := List.mem_filter.mp hnode
  have place := h.below (Cursor.mem_places_of_fieldNamed hnode)
  exact Decl.every_named_oneLine (place.here.typeParam (beq_iff_eq.mp type))

theorem oneLine_paramName (h : c.OneLine) (isParam : isParameter c.type = true) :
    Text.OneLine (paramName c) :=
  (h.param isParam).of_mem fun _ hc => (List.dropWhile_sublist _).subset hc

end

/-! ## The readers of types

As for the form of types, each reader is looked at under the assumption that
types at smaller places are read well. -/

section

variable (path : String) {c : Cursor} {n : Nat}
  (ih : ∀ p : Cursor, p.size < n -> p.AllOneLine ->
    (readType path p).Yields (Decl.Every Decl.OneLine))

include ih

theorem yields_param (h : c.AllOneLine) (isParam : isParameter c.type = true) (hn : c.size ≤ n) :
    (readParam path c).Yields fun p => (Decl.param p).Every Decl.OneLine := by
  have name := oneLine_paramName h.here isParam
  rw [readParam]
  split
  case h_1 =>
      have obj : (Traced.done .obj : Reading Decl).Yields (Decl.Every Decl.OneLine) :=
        Traced.ends_done Decl.every_obj_oneLine
      exact obj.bind fun _ type => Traced.ends_done (Decl.every_param_oneLine name type)
  case h_2 type field =>
      have := Cursor.size_lt_of_field? field
      have inside := ih type (by omega) (h.below (Cursor.mem_places_of_field? field))
      exact inside.bind fun _ type => Traced.ends_done (Decl.every_param_oneLine name type)

theorem yields_params (h : c.AllOneLine) (hn : c.size ≤ n) :
    (readParams path c).Yields fun ps => ∀ p ∈ ps, (Decl.param p).Every Decl.OneLine := by
  rw [readParams]
  refine Traced.ends_traverseMem fun p hp => ?_
  have := size_lt_of_mem_parameters hp
  exact yields_param path ih (h.below (mem_places_of_parameters hp)) (List.mem_filter.mp hp).2
    (by omega)

theorem yields_result (h : c.AllOneLine) (hn : c.size ≤ n) :
    (readResult path c).Yields (Decl.Every Decl.OneLine) := by
  rw [readResult]
  split
  case h_1 => exact Traced.ends_done (Decl.every_named_oneLine (by decide))
  case h_2 type result =>
      have := size_lt_of_result? result
      exact ih type (by omega) (h.below (mem_places_of_result? result))

theorem yields_tupleElement (h : c.AllOneLine) (hn : c.size < n) :
    (readTupleElement path c).Yields (Decl.Every Decl.OneLine) := by
  rw [readTupleElement]
  split
  · split
    case h_1 => exact Traced.ends_done (Decl.oneLine_of_empty rfl rfl)
    case h_2 inner rest named =>
        have := Cursor.size_lt_of_named_eq_cons named
        exact ih inner (by omega)
          (h.below (Cursor.mem_places_of_named (named ▸ List.mem_cons_self)))
  · split
    · split
      case h_1 => exact Traced.ends_done Decl.every_obj_oneLine
      case h_2 type field =>
          have := Cursor.size_lt_of_field? field
          exact ih type (by omega) (h.below (Cursor.mem_places_of_field? field))
    · exact ih c hn h

theorem yields_bareType (h : c.AllOneLine) (hn : c.size ≤ n) :
    (readBareType path c).Yields (Decl.Every Decl.OneLine) := by
  rw [readBareType]
  split
  case h_1 kind =>
      split
      case isTrue =>
          split
          case isTrue => exact Traced.ends_fail trivial
          case isFalse =>
              have each : ∀ a ∈ c.fieldNamed "type_arguments",
                  (readType path a).Yields (Decl.Every Decl.OneLine) := by
                intro a ha
                have := Cursor.size_lt_of_mem_fieldNamed ha
                exact ih a (by omega) (h.below (Cursor.mem_places_of_fieldNamed ha))
              refine (Traced.ends_traverseMem each).bind fun _ arguments => ?_
              exact Traced.ends_done (Decl.every_generic_oneLine h.here.name arguments)
      case isFalse plain =>
          exact yields_plainReference path h.here kind fun generic => plain (beq_iff_eq.mpr generic)
  case h_2 =>
      split
      case h_1 => exact Traced.ends_note_bind (Traced.ends_done (Decl.oneLine_of_empty rfl rfl))
      case h_2 element rest named =>
          have := Cursor.size_lt_of_named_eq_cons named
          have inside := ih element (by omega)
            (h.below (Cursor.mem_places_of_named (named ▸ List.mem_cons_self)))
          refine inside.bind fun _ type => Traced.ends_done ?_
          exact Decl.every_iff.mpr ⟨List.forall_mem_nil _, List.forall_mem_singleton.mpr type⟩
  case h_3 =>
      have each : ∀ a ∈ alternatives c, (readType path a).Yields (Decl.Every Decl.OneLine) := by
        intro a ha
        have := size_lt_of_mem_alternatives ha
        exact ih a (by omega) (h.below (mem_places_of_alternatives ha))
      refine (Traced.ends_traverseMem each).bind fun _ types => Traced.ends_done ?_
      exact Decl.every_iff.mpr
        ⟨List.forall_mem_nil _, fun a ha => types a (Decl.mem_of_mem_dedupe ha)⟩
  case h_4 =>
      have each : ∀ e ∈ c.named, (readTupleElement path e).Yields (Decl.Every Decl.OneLine) := by
        intro e he
        have := Cursor.size_lt_of_mem_named he
        exact yields_tupleElement path ih (h.below (Cursor.mem_places_of_named he)) (by omega)
      refine (Traced.ends_traverseMem each).bind fun _ types => Traced.ends_done ?_
      exact Decl.every_iff.mpr ⟨List.forall_mem_nil _, types⟩
  case h_5 =>
      refine (yields_params path ih h hn).bind fun _ params => ?_
      refine (yields_result path ih h hn).bind fun _ result => Traced.ends_done ?_
      exact Decl.every_function (List.forall_mem_nil _) (oneLine_readTypeParams h) params result
  case h_6 kind => exact Traced.ends_done (oneLine_readLiteral h.here kind)
  case h_7 => exact yields_otherType path

end

theorem yields_type (path : String) (c : Cursor) (h : c.AllOneLine) :
    (readType path c).Yields (Decl.Every Decl.OneLine) := by
  have smaller : ∀ p : Cursor, p.size < c.size -> p.AllOneLine ->
      (readType path p).Yields (Decl.Every Decl.OneLine) := fun p _ => yields_type path p
  rw [readType]
  exact yields_bareType path smaller (h.below c.unwrapType_mem_places) c.size_unwrapType_le
termination_by c.size

theorem yields_field (path : String) {c : Cursor} (h : c.AllOneLine) (name : String)
    {default : Decl} (hdefault : default.Every Decl.OneLine) :
    (readField path c name default).Yields (Decl.Every Decl.OneLine) := by
  unfold readField
  split
  case h_1 => exact Traced.ends_done hdefault
  case h_2 type field =>
      exact yields_type path type (h.below (Cursor.mem_places_of_field? field))

/-! ## Members -/

section

variable (path : String) {c : Cursor} (h : c.AllOneLine)

include h

theorem yields_allParams :
    (readParams path c).Yields fun ps => ∀ p ∈ ps, (Decl.param p).Every Decl.OneLine :=
  yields_params path (fun p _ => yields_type path p) h (Nat.le_refl c.size)

theorem yields_functionResult : (readResult path c).Yields (Decl.Every Decl.OneLine) :=
  yields_result path (fun p _ => yields_type path p) h (Nat.le_refl c.size)

theorem yields_indexSignature :
    (readIndexSignature path c).Yields (Decl.Every Decl.OneLine) := by
  unfold readIndexSignature
  split
  case h_1 => exact Traced.ends_note_bind (Traced.ends_done (Decl.oneLine_of_empty rfl rfl))
  case h_2 name field =>
      have nameText : Text.OneLine name.text := by
        have text := h.here.name
        rwa [Cursor.fieldText, field, Option.map_some, Option.getD_some] at text
      refine (yields_field path h "index_type" Decl.every_obj_oneLine).bind fun _ index => ?_
      refine (yields_field path h "type" (Decl.oneLine_of_empty rfl rfl)).bind fun _ type => ?_
      have texts : ∀ s ∈ ["Item", indexerTemplate], Text.OneLine s := by decide
      refine Traced.ends_done (Decl.every_property_oneLine texts ?_ type)
      rintro i ⟨⟩
      exact Decl.every_param_oneLine nameText index

theorem yields_method :
    (readMethod path c).Yields fun s => (Decl.function s).Every Decl.OneLine := by
  unfold readMethod
  refine (yields_allParams path h).bind fun _ params => ?_
  refine (yields_functionResult path h).bind fun _ result => Traced.ends_done ?_
  have name : Text.OneLine (memberName c) := h.here.name.unquote
  exact Decl.every_function (List.forall_mem_singleton.mpr name) (oneLine_readTypeParams h) params
    result

theorem every_memberProperty {isStatic optional : Bool} {type : Decl}
    (htype : type.Every Decl.OneLine) :
    (Decl.property ⟨none, isStatic, none, memberName c, optional, type⟩).Every Decl.OneLine :=
  Decl.every_property_oneLine (List.forall_mem_singleton.mpr h.here.name.unquote) nofun htype

theorem yields_property :
    (readProperty path c).Yields fun p => (Decl.property p).Every Decl.OneLine := by
  unfold readProperty
  refine (yields_field path h "type" (Decl.oneLine_of_empty rfl rfl)).bind fun _ type => ?_
  exact Traced.ends_done (every_memberProperty h type)

theorem yields_accessorType : (readAccessorType path c).Yields (Decl.Every Decl.OneLine) := by
  unfold readAccessorType
  split
  · exact yields_field path h "return_type" (Decl.oneLine_of_empty rfl rfl)
  · refine (yields_allParams path h).bind fun params types => Traced.ends_done ?_
    cases params with
    | nil => exact Decl.oneLine_of_empty rfl rfl
    | cons p params => exact (types p List.mem_cons_self).child List.mem_cons_self

theorem yields_accessor :
    (readAccessor path c).Yields fun p => (Decl.property p).Every Decl.OneLine := by
  unfold readAccessor
  refine (yields_accessorType path h).bind fun _ type => ?_
  exact Traced.ends_done (every_memberProperty h type)

theorem yields_callSignature :
    (readCallSignature path c).Yields fun s => (Decl.function s).Every Decl.OneLine := by
  unfold readCallSignature
  refine (yields_allParams path h).bind fun _ params => ?_
  refine (yields_functionResult path h).bind fun _ result => Traced.ends_done ?_
  have texts : ∀ s ∈ ["Invoke", invokeTemplate], Text.OneLine s := by decide
  exact Decl.every_function texts nofun params result

theorem yields_constructSignature :
    (readConstructSignature path c).Yields fun s => (Decl.function s).Every Decl.OneLine := by
  unfold readConstructSignature
  refine (yields_allParams path h).bind fun _ params => Traced.ends_done ?_
  have texts : ∀ s ∈ ["Create", createTemplate], Text.OneLine s := by decide
  exact Decl.every_function texts (oneLine_readTypeParams h) params (Decl.oneLine_of_empty rfl rfl)

theorem yields_plainMember : (readPlainMember path c).Yields (Decl.Every Decl.OneLine) := by
  unfold readPlainMember
  split
  case h_1 => exact yields_indexSignature path h
  case h_2 | h_3 => exact (yields_method path h).bind fun _ => Traced.ends_done
  case h_4 | h_5 => exact (yields_property path h).bind fun _ => Traced.ends_done
  case h_6 => exact (yields_callSignature path h).bind fun _ => Traced.ends_done
  case h_7 | h_8 => exact (yields_constructSignature path h).bind fun _ => Traced.ends_done
  case h_9 => exact Traced.ends_note_bind (Traced.ends_done (Decl.oneLine_of_empty rfl rfl))

end

theorem yields_membersAfter (path : String) {nodes : List Cursor}
    (h : ∀ node ∈ nodes, node.AllOneLine) (accessors : List String) :
    (readMembersAfter path accessors nodes).Yields fun ms =>
      ∀ m ∈ ms, m.Every Decl.OneLine := by
  induction nodes generalizing accessors with
  | nil => exact Traced.ends_done nofun
  | cons node nodes ih =>
      obtain ⟨hnode, hnodes⟩ := List.forall_mem_cons.mp h
      rw [readMembersAfter]
      split
      · refine (yields_accessor path hnode).bind fun property first => ?_
        split
        · exact ih hnodes accessors
        · refine (ih hnodes _).bind fun rest others => ?_
          exact Traced.ends_done (List.forall_mem_cons.mpr ⟨first, others⟩)
      · refine (yields_plainMember path hnode).bind fun member first => ?_
        refine (ih hnodes _).bind fun rest others => ?_
        exact Traced.ends_done (List.forall_mem_cons.mpr ⟨first, others⟩)

theorem yields_members (path : String) {body : Option Cursor}
    (h : ∀ b, body = some b -> b.AllOneLine) :
    (readMembers path body).Yields fun ms => ∀ m ∈ ms, m.Every Decl.OneLine := by
  refine yields_membersAfter path ?_ []
  intro node hnode
  cases body with
  | none => cases hnode
  | some b => exact (h b rfl).below (Cursor.mem_places_of_named (List.mem_filter.mp hnode).1)

/-! ## Heritage -/

section

variable (path : String) {c : Cursor} (h : c.AllOneLine)

include h

theorem yields_heritage (inherited : isInheritedType c = true) :
    (readHeritage path c).Yields (Decl.Every Decl.OneLine) := by
  unfold readHeritage
  split
  case isTrue => exact Traced.ends_fail trivial
  case isFalse =>
      have each : ∀ a ∈ heritageArguments c,
          (readType path a).Yields (Decl.Every Decl.OneLine) := by
        intro a ha
        unfold heritageArguments at ha
        split at ha
        · exact yields_type path a (h.below (Cursor.mem_places_of_fieldNamed ha))
        · cases ha
      refine (Traced.ends_traverse each).bind fun _ arguments => ?_
      exact Traced.ends_done (Decl.every_generic_oneLine (h.here.inherited inherited) arguments)

theorem yields_interfaceHeritage :
    (readInterfaceHeritage path c).Yields fun ts => ∀ t ∈ ts, t.Every Decl.OneLine := by
  refine Traced.ends_traverse fun entry hentry => ?_
  obtain ⟨clause, hclause, hentry⟩ := List.mem_flatMap.mp hentry
  have inside := h.below (Cursor.mem_places_of_named (List.mem_filter.mp hclause).1)
  obtain ⟨hentry, kind⟩ := List.mem_filter.mp hentry
  exact yields_heritage path (inside.below (Cursor.mem_places_of_named hentry))
    (isInheritedType_of_kind kind)

omit h in
theorem oneLine_withLastArguments {arguments types : List Decl}
    (hargs : ∀ a ∈ arguments, a.Every Decl.OneLine) (htypes : ∀ t ∈ types, t.Every Decl.OneLine) :
    ∀ t ∈ withLastArguments arguments types, t.Every Decl.OneLine := by
  fun_induction withLastArguments arguments types with
  | case1 => exact htypes
  | case2 base old =>
      have hbase := (htypes _ List.mem_cons_self).child (c := base) List.mem_cons_self
      refine List.forall_mem_singleton.mpr (Decl.every_iff.mpr ⟨List.forall_mem_nil _, ?_⟩)
      exact List.forall_mem_cons.mpr ⟨hbase, hargs⟩
  | case3 d ds _ ih =>
      obtain ⟨first, rest⟩ := List.forall_mem_cons.mp htypes
      exact List.forall_mem_cons.mpr ⟨first, ih rest⟩

theorem yields_extended {types : List Decl} (htypes : ∀ t ∈ types, t.Every Decl.OneLine) :
    (addExtended path types c).Yields fun ts => ∀ t ∈ ts, t.Every Decl.OneLine := by
  unfold addExtended
  split
  case isTrue kind =>
      refine (yields_heritage path h (isInheritedType_of_kind kind)).bind
        fun type htype => Traced.ends_done ?_
      exact List.forall_mem_append.mpr ⟨htypes, List.forall_mem_singleton.mpr htype⟩
  case isFalse =>
      split
      · have each : ∀ a ∈ c.named, (readType path a).Yields (Decl.Every Decl.OneLine) :=
          fun a ha => yields_type path a (h.below (Cursor.mem_places_of_named ha))
        refine (Traced.ends_traverse each).bind fun _ hargs => ?_
        exact Traced.ends_done (oneLine_withLastArguments hargs htypes)
      · exact Traced.ends_done htypes

theorem yields_clause {types : List Decl} (htypes : ∀ t ∈ types, t.Every Decl.OneLine) :
    (addClause path types c).Yields fun ts => ∀ t ∈ ts, t.Every Decl.OneLine := by
  unfold addClause
  split
  case isTrue implements =>
      have each : ∀ t ∈ c.named, (readHeritage path t).Yields (Decl.Every Decl.OneLine) := by
        intro t ht
        have inherited : isInheritedType t = true := by
          obtain ⟨node, -, rfl⟩ := List.mem_map.mp (List.mem_filter.mp ht).1
          have parent : c.node.type = "implements_clause" := beq_iff_eq.mp implements
          simp [isInheritedType, parent]
        exact yields_heritage path (h.below (Cursor.mem_places_of_named ht)) inherited
      refine (Traced.ends_traverse each).bind fun _ more => ?_
      exact Traced.ends_done (List.forall_mem_append.mpr ⟨htypes, more⟩)
  case isFalse =>
      split
      · refine Traced.ends_fold htypes fun ts t ht hts => ?_
        exact yields_extended path (h.below (Cursor.mem_places_of_named ht)) hts
      · exact Traced.ends_done htypes

theorem yields_classHeritage :
    (readClassHeritage path c).Yields fun ts => ∀ t ∈ ts, t.Every Decl.OneLine := by
  unfold readClassHeritage
  split
  case h_1 => exact Traced.ends_done nofun
  case h_2 heritage found =>
      have inside := h.below (Cursor.mem_places_of_named (List.mem_of_find?_eq_some found))
      refine Traced.ends_fold nofun fun ts clause hclause hts => ?_
      exact yields_clause path (inside.below (Cursor.mem_places_of_named hclause)) hts

end

/-! ## Statements -/

section

variable (path : String) {c : Cursor} (h : c.AllOneLine)

include h

theorem yields_interface :
    (readInterface path c).Yields fun i => (Decl.interface i).Every Decl.OneLine := by
  unfold readInterface
  refine (yields_interfaceHeritage path h).bind fun _ inherits => ?_
  refine (yields_members path fun _ hb => h.below (mem_places_of_body? hb)).bind
    fun _ members => Traced.ends_done ?_
  exact Decl.every_interface (List.forall_mem_singleton.mpr h.here.name)
    (oneLine_readTypeParams h) inherits members

theorem yields_class :
    (readClass path c).Yields fun i => (Decl.interface i).Every Decl.OneLine := by
  unfold readClass
  refine (yields_classHeritage path h).bind fun _ inherits => ?_
  refine (yields_members path fun _ hb => h.below (mem_places_of_body? hb)).bind
    fun _ members => Traced.ends_done ?_
  have name : Text.OneLine (className c) := by
    unfold className
    split
    · decide
    · exact h.here.name
  exact Decl.every_interface (List.forall_mem_singleton.mpr name) (oneLine_readTypeParams h)
    inherits members

theorem oneLine_readEnumCase (hc : c.type ≠ "enum_assignment" -> Text.OneLine c.text) :
    ∀ s ∈ (readEnumCase c).texts, Text.OneLine s := by
  have name : Text.OneLine (memberName c) := h.here.name.unquote
  unfold readEnumCase
  split
  case isTrue other =>
      exact List.forall_mem_singleton.mpr (hc (bne_iff_ne.mp other)).unquote
  case isFalse assignment =>
      split
      case h_1 => exact List.forall_mem_singleton.mpr name
      case h_2 value field =>
          split
          case isTrue number =>
              have type : c.type = "enum_assignment" := by simpa using assignment
              have text := h.here.enumValue type value field (beq_iff_eq.mp number)
              exact List.forall_mem_cons.mpr ⟨name, List.forall_mem_singleton.mpr text⟩
          case isFalse =>
              split
              · exact List.forall_mem_singleton.mpr name
              · exact List.forall_mem_singleton.mpr name

theorem oneLine_readEnum (kind : c.kind = .enumDeclaration) :
    (Decl.enum (readEnum c)).Every Decl.OneLine := by
  refine Decl.every_iff.mpr ⟨List.forall_mem_cons.mpr ⟨h.here.name, ?_⟩, nofun⟩
  intro s hs
  obtain ⟨case, hcase, hs⟩ := List.mem_flatMap.mp hs
  obtain ⟨member, hmember, rfl⟩ := List.mem_map.mp hcase
  exact oneLine_readEnumCase (h.below (Cursor.mem_places_of_fieldNamed hmember))
    (h.here.enumCase kind member hmember) s hs

omit h in
theorem literal_mem_of_literals? {ds : List Decl} {texts : List String}
    (found : literals? ds = some texts) : ∀ text ∈ texts, .literal text ∈ ds := by
  induction ds generalizing texts with
  | nil =>
      cases found
      exact nofun
  | cons d ds ih =>
      rw [literals?] at found
      split at found
      case h_1 text rest literal others =>
          obtain rfl := Option.some.inj found
          obtain rfl : d = .literal text := by
            cases d <;> simp_all [Decl.literal?]
          refine List.forall_mem_cons.mpr ⟨List.mem_cons_self, ?_⟩
          exact fun t ht => List.mem_cons_of_mem _ (ih others t ht)
      case h_2 => cases found

omit h in
theorem oneLine_literalUnion? {d : Decl} (hd : d.Every Decl.OneLine) {texts : List String}
    (found : literalUnion? d = some texts) : ∀ text ∈ texts, Text.OneLine text := by
  unfold literalUnion? at found
  split at found
  case h_1 optional first rest =>
      intro text htext
      have literal := hd.child (literal_mem_of_literals? found text htext)
      exact literal.self text List.mem_cons_self
  case h_2 => cases found

theorem yields_alias : (readAlias path c).Yields (Decl.Every Decl.OneLine) := by
  unfold readAlias
  split
  case h_1 => exact Traced.ends_fail trivial
  case h_2 value found =>
      refine (yields_type path value (h.below (mem_places_of_aliasValue? found))).bind
        fun type htype => ?_
      split
      case h_1 texts union =>
          have cases := oneLine_literalUnion? htype union
          refine Traced.ends_done (Decl.every_iff.mpr
            ⟨List.forall_mem_cons.mpr ⟨h.here.name, ?_⟩, nofun⟩)
          intro s hs
          obtain ⟨case, hcase, hs⟩ := List.mem_flatMap.mp hs
          obtain ⟨text, htext, rfl⟩ := List.mem_map.mp hcase
          rw [List.mem_singleton.mp hs]
          exact cases text htext
      case h_2 =>
          refine Traced.ends_done (Decl.every_iff.mpr
            ⟨List.forall_mem_singleton.mpr h.here.name, ?_⟩)
          exact List.forall_mem_cons.mpr ⟨htype, oneLine_readTypeParams h⟩

theorem yields_variable (modifiers : Modifiers) :
    (readVariable path c modifiers).Yields (Decl.Every Decl.OneLine) := by
  unfold readVariable
  split
  case h_1 => exact Traced.ends_note_bind (Traced.ends_done (Decl.oneLine_of_empty rfl rfl))
  case h_2 binding others bindings =>
      have hbinding : binding.AllOneLine := by
        have first : binding ∈ binding :: others := List.mem_cons_self
        rw [← bindings] at first
        exact h.below (Cursor.mem_places_of_named (List.mem_filter.mp first).1)
      have rest : Traced.Yields
          (do
            let type ← readField path binding "type" .obj
            .done (.var ⟨modifiers.declared, binding.fieldText "name", type⟩) : Reading Decl)
          (Decl.Every Decl.OneLine) := by
        refine (yields_field path hbinding "type" Decl.every_obj_oneLine).bind fun _ type => ?_
        exact Traced.ends_done (Decl.every_iff.mpr
          ⟨List.forall_mem_singleton.mpr hbinding.here.name, List.forall_mem_singleton.mpr type⟩)
      split
      · exact Traced.ends_note_bind rest
      · exact rest

theorem yields_function :
    (readFunction path c).Yields fun s => (Decl.function s).Every Decl.OneLine := by
  unfold readFunction
  refine (yields_allParams path h).bind fun _ params => ?_
  refine (yields_functionResult path h).bind fun _ result => Traced.ends_done ?_
  refine Decl.every_function ?_ (oneLine_readTypeParams h) params result
  intro s hs
  rcases List.mem_append.mp hs with name | none
  · simp only [functionName?, Option.mem_toList] at name
    split at name
    · cases name
    · rw [← Option.some.inj name]
      exact h.here.name
  · cases none

theorem yields_plainStatement (modifiers : Modifiers) :
    (readPlainStatement path c modifiers).Yields (Decl.Every Decl.OneLine) := by
  unfold readPlainStatement
  split
  case h_1 => exact (yields_interface path h).bind fun _ => Traced.ends_done
  case h_2 => exact (yields_class path h).bind fun _ => Traced.ends_done
  case h_3 kind => exact Traced.ends_done (oneLine_readEnum h kind)
  case h_4 => exact yields_alias path h
  case h_5 => exact yields_variable path h modifiers
  case h_6 => exact (yields_function path h).bind fun _ => Traced.ends_done
  case h_7 => exact Traced.ends_note_bind (Traced.ends_done (Decl.oneLine_of_empty rfl rfl))
  all_goals exact Traced.ends_note_bind (Traced.ends_done (Decl.oneLine_of_empty rfl rfl))

theorem oneLine_moduleNames : ∀ name ∈ moduleNames c, Text.OneLine name := by
  have whole : Text.OneLine (moduleName (c.field? "name")) := by
    have text := h.here.name
    unfold moduleName
    split
    case h_1 => decide
    case h_2 n field =>
        rw [Cursor.fieldText, field, Option.map_some, Option.getD_some] at text
        split
        · exact text.unquote
        · exact text.of_mem fun _ hc => (List.mem_filter.mp hc).1
  simp only [moduleNames]
  split
  · exact List.forall_mem_singleton.mpr (by decide)
  · split
    · exact whole.dotted
    · exact List.forall_mem_singleton.mpr whole

end

theorem oneLine_nestModules {entries : List Decl} (h : ∀ e ∈ entries, e.Every Decl.OneLine)
    {names : List String} (hnames : ∀ name ∈ names, Text.OneLine name) :
    (nestModules entries names).Every Decl.OneLine := by
  fun_induction nestModules entries names with
  | case1 =>
      have global : Text.OneLine "" := by decide
      exact Decl.every_iff.mpr ⟨List.forall_mem_singleton.mpr global, h⟩
  | case2 name => exact Decl.every_iff.mpr ⟨hnames, h⟩
  | case3 name names _ ih =>
      obtain ⟨first, rest⟩ := List.forall_mem_cons.mp hnames
      exact Decl.every_iff.mpr
        ⟨List.forall_mem_singleton.mpr first, List.forall_mem_singleton.mpr (ih rest)⟩

theorem yields_module (path : String) {c : Cursor} (h : c.AllOneLine)
    (smaller : ∀ s : Cursor, s.size < c.size -> s.AllOneLine ->
      (readStatement path s).Yields fun d? => ∀ d, d? = some d -> d.Every Decl.OneLine) :
    (readModule path c).Yields (Decl.Every Decl.OneLine) := by
  rw [readModule]
  have each : ∀ s ∈ moduleStatements c, (readStatement path s).Yields
      fun d? => ∀ d, d? = some d -> d.Every Decl.OneLine := fun s hs =>
    smaller s (size_lt_of_mem_moduleStatements hs) (h.below (mem_places_of_moduleStatements hs))
  refine (Traced.ends_traverseMem each).bind fun _ entries => Traced.ends_done ?_
  exact oneLine_nestModules (forall_mem_filterMap_id entries) (oneLine_moduleNames h)

theorem yields_statement (path : String) (c : Cursor) (h : c.AllOneLine) :
    (readStatement path c).Yields fun d? => ∀ d, d? = some d -> d.Every Decl.OneLine := by
  have inside := h.below c.unwrapStatement_mem_places
  have size := c.size_unwrapStatement_le
  have smaller : ∀ s : Cursor, s.size < c.unwrapStatement.1.size -> s.AllOneLine ->
      (readStatement path s).Yields fun d? => ∀ d, d? = some d -> d.Every Decl.OneLine :=
    fun s _ => yields_statement path s
  have some : ∀ {d : Decl}, d.Every Decl.OneLine ->
      ∀ e, some d = some e -> e.Every Decl.OneLine := by
    rintro d hd _ ⟨⟩
    exact hd
  rw [readStatement]
  split
  · refine Traced.ends_done ?_
    rintro _ ⟨⟩
  · split
    · exact (yields_module path inside smaller).bind fun _ hd => Traced.ends_done (some hd)
    · exact (yields_plainStatement path inside _).bind fun _ hd => Traced.ends_done (some hd)
termination_by c.size
decreasing_by omega

theorem yields_declarations (path : String) {tree : Node} (h : (Cursor.root tree).AllOneLine) :
    (readDeclarations path tree).Yields fun ds => ∀ d ∈ ds, d.Every Decl.OneLine := by
  have each : ∀ s ∈ (Cursor.root tree).named, (readStatement path s).Yields
      fun d? => ∀ d, d? = some d -> d.Every Decl.OneLine := fun s hs =>
    yields_statement path s (h.below (Cursor.mem_places_of_named hs))
  refine (Traced.ends_traverse each).bind fun _ entries => ?_
  exact Traced.ends_done (forall_mem_filterMap_id entries)

end Bindgen

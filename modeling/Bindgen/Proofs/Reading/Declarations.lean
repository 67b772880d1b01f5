import Bindgen.Proofs.Reading.Types
import Bindgen.Proofs.Rewriting

/-! # What the readers of declarations yield

The form of the members and the entries that can be read. As with types, a
reader yields something of this form or ends with a fault of the tree.
-/

namespace Bindgen

open Syntax

/-! ## Forms -/

structure Signature.Typed (s : Signature) : Prop where
  typeParams : ∀ p ∈ s.typeParams, p.IsName
  params : ∀ p ∈ s.params, p.type.TypeExpr
  result : s.result.TypeExpr

/-- The type of a property can be missing. -/
def Decl.IsPropertyType (d : Decl) : Prop :=
  d.TypeExpr ∨ d = .absent

/-- The members of an interface that can be read. Only calls, constructions and
indexers have templates. -/
inductive Decl.MemberForm : Decl -> Prop
  | todo : MemberForm .todo
  | method {s : Signature} {name : String} (typed : s.Typed) (named : s.name = some name)
      (template : s.emit = none) : MemberForm (.function s)
  | call {s : Signature} (typed : s.Typed) (named : s.name = some "Invoke")
      (template : s.emit = some invokeTemplate) : MemberForm (.function s)
  | construction {s : Signature} (typed : s.Typed) (named : s.name = some "Create")
      (template : s.emit = some createTemplate) (static : s.isStatic = true)
      (self : s.result = .self) : MemberForm (.function s)
  | property {p : Property} (type : p.type.IsPropertyType) (index : p.index = none)
      (template : p.emit = none) : MemberForm (.property p)
  | indexer {p : Property} {i : Param} (type : p.type.IsPropertyType) (index : p.index = some i)
      (indexType : i.type.TypeExpr) (named : p.name = "Item")
      (template : p.emit = some indexerTemplate) : MemberForm (.property p)

/-- An inherited type is a name with arguments, maybe none. -/
def Decl.IsInherited (d : Decl) : Prop :=
  ∃ name arguments, d = .generic (.named name) arguments ∧ ∀ a ∈ arguments, a.TypeExpr

structure Interface.Formed (i : Interface) : Prop where
  isStatic : i.isStatic = false
  typeParams : ∀ p ∈ i.typeParams, p.IsName
  inherits : ∀ t ∈ i.inherits, t.IsInherited
  members : ∀ m ∈ i.members, m.MemberForm

/-- The entries of a file or a module that can be read. -/
inductive Decl.EntryForm : Decl -> Prop
  | interface {i : Interface} (formed : i.Formed) : EntryForm (.interface i)
  | enum (e : Enum) : EntryForm (.enum e)
  | typeAlias {a : Alias} (names : ∀ p ∈ a.typeParams, p.IsName) (type : a.type.TypeExpr) :
      EntryForm (.typeAlias a)
  | var {v : Variable} (type : v.type.TypeExpr) : EntryForm (.var v)
  | function {s : Signature} (typed : s.Typed) (template : s.emit = none)
      (static : s.isStatic = false) : EntryForm (.function s)
  | module {m : Module} (entries : ∀ e ∈ m.entries, EntryForm e) : EntryForm (.module m)
  | todo : EntryForm .todo
  | absent : EntryForm .absent

/-! ## Members -/

section

variable (path : String) (c : Cursor)

theorem reads_allParams : Reads path c (readParams path c) fun ps => ∀ p ∈ ps, p.type.TypeExpr :=
  reads_params path (fun p _ => reads_type path p) (Nat.le_refl c.size)

theorem reads_functionResult : Reads path c (readResult path c) Decl.TypeExpr :=
  reads_result path (fun p _ => reads_type path p) (Nat.le_refl c.size)

theorem reads_propertyType (name : String) :
    Reads path c (readField path c name .absent) Decl.IsPropertyType :=
  reads_field path c name (.inr rfl) fun _ => .inl

theorem reads_indexSignature : Reads path c (readIndexSignature path c) Decl.MemberForm := by
  unfold readIndexSignature
  split
  case h_1 => exact Traced.ends_note_bind (Traced.ends_done .todo)
  case h_2 name _ =>
      have indexType : Reads path c (readField path c "index_type" .obj) Decl.TypeExpr :=
        reads_field path c _ (.named _) fun _ => id
      refine indexType.bind fun _ hindex => ?_
      refine (reads_propertyType path c "type").bind fun _ htype => ?_
      exact Traced.ends_done (.indexer htype rfl hindex rfl rfl)

theorem reads_method : Reads path c (readMethod path c) fun s => (Decl.function s).MemberForm := by
  unfold readMethod
  refine (reads_allParams path c).bind fun _ params => ?_
  refine (reads_functionResult path c).bind fun _ result => ?_
  exact Traced.ends_done
    (.method ⟨fun _ => isName_of_mem_readTypeParams, params, result⟩ rfl rfl)

theorem reads_property :
    Reads path c (readProperty path c) fun p => (Decl.property p).MemberForm := by
  unfold readProperty
  refine (reads_propertyType path c "type").bind fun _ type => ?_
  exact Traced.ends_done (.property type rfl rfl)

theorem reads_accessorType : Reads path c (readAccessorType path c) Decl.IsPropertyType := by
  unfold readAccessorType
  split
  · exact reads_propertyType path c "return_type"
  · refine (reads_allParams path c).bind fun params types => Traced.ends_done ?_
    cases params with
    | nil => exact .inr rfl
    | cons p params => exact .inl (types p List.mem_cons_self)

theorem reads_accessor :
    Reads path c (readAccessor path c) fun p => (Decl.property p).MemberForm := by
  unfold readAccessor
  refine (reads_accessorType path c).bind fun _ type => ?_
  exact Traced.ends_done (.property type rfl rfl)

theorem reads_callSignature :
    Reads path c (readCallSignature path c) fun s => (Decl.function s).MemberForm := by
  unfold readCallSignature
  refine (reads_allParams path c).bind fun _ params => ?_
  refine (reads_functionResult path c).bind fun _ result => ?_
  exact Traced.ends_done (.call ⟨nofun, params, result⟩ rfl rfl)

theorem reads_constructSignature :
    Reads path c (readConstructSignature path c) fun s => (Decl.function s).MemberForm := by
  unfold readConstructSignature
  refine (reads_allParams path c).bind fun _ params => ?_
  exact Traced.ends_done (.construction
    ⟨fun _ => isName_of_mem_readTypeParams, params, .self⟩ rfl rfl rfl rfl)

theorem reads_plainMember : Reads path c (readPlainMember path c) Decl.MemberForm := by
  unfold readPlainMember
  split
  case h_1 => exact reads_indexSignature path c
  case h_2 => exact (reads_method path c).bind fun _ => Traced.ends_done
  case h_3 => exact (reads_method path c).bind fun _ => Traced.ends_done
  case h_4 => exact (reads_property path c).bind fun _ => Traced.ends_done
  case h_5 => exact (reads_property path c).bind fun _ => Traced.ends_done
  case h_6 => exact (reads_callSignature path c).bind fun _ => Traced.ends_done
  case h_7 => exact (reads_constructSignature path c).bind fun _ => Traced.ends_done
  case h_8 => exact (reads_constructSignature path c).bind fun _ => Traced.ends_done
  case h_9 => exact Traced.ends_note_bind (Traced.ends_done .todo)

variable {c}

theorem reads_membersAfter {nodes : List Cursor} (inside : ∀ node ∈ nodes, node ∈ c.places)
    (accessors : List String) :
    Reads path c (readMembersAfter path accessors nodes) fun ms => ∀ m ∈ ms, m.MemberForm := by
  induction nodes generalizing accessors with
  | nil => exact Traced.ends_done nofun
  | cons node nodes ih =>
      obtain ⟨hnode, hnodes⟩ := List.forall_mem_cons.mp inside
      rw [readMembersAfter]
      split
      · refine Traced.Ends.bind ((reads_accessor path node).below hnode) fun property form => ?_
        split
        · exact ih hnodes accessors
        · refine Traced.Ends.bind (ih hnodes _) fun rest forms => ?_
          exact Traced.ends_done (List.forall_mem_cons.mpr ⟨form, forms⟩)
      · refine Traced.Ends.bind ((reads_plainMember path node).below hnode) fun member form => ?_
        refine Traced.Ends.bind (ih hnodes _) fun rest forms => ?_
        exact Traced.ends_done (List.forall_mem_cons.mpr ⟨form, forms⟩)

theorem reads_members {body : Option Cursor} (inside : ∀ b, body = some b -> b ∈ c.places) :
    Reads path c (readMembers path body) fun ms => ∀ m ∈ ms, m.MemberForm := by
  refine reads_membersAfter path ?_ []
  intro node hnode
  cases body with
  | none => cases hnode
  | some b =>
      have hnode := (List.mem_filter.mp hnode).1
      exact Cursor.mem_places_trans (inside b rfl) (Cursor.mem_places_of_named hnode)

end

/-! ## Heritage -/

section

variable (path : String) {c : Cursor}

theorem reads_heritage (entry : c.inHeritageClause = true) :
    Reads path c (readHeritage path c) Decl.IsInherited := by
  unfold readHeritage
  split
  case isTrue unnamed =>
      have nameless : c.isNameless = true := by
        unfold heritageName at unnamed
        split at unnamed
        case isTrue generic => simp [Cursor.isNameless, generic, unnamed]
        case isFalse => simp [Cursor.isNameless, entry, unnamed]
      exact Traced.ends_fail (.here (.unnamed nameless rfl))
  case isFalse =>
      have each : ∀ a ∈ heritageArguments c, Reads path c (readType path a) Decl.TypeExpr := by
        intro a ha
        unfold heritageArguments at ha
        split at ha
        · exact (reads_type path a).below (Cursor.mem_places_of_fieldNamed ha)
        · cases ha
      refine (Traced.ends_traverse each).bind fun arguments types => ?_
      exact Traced.ends_done ⟨_, arguments, rfl, types⟩

theorem reads_interfaceHeritage :
    Reads path c (readInterfaceHeritage path c) fun ts => ∀ t ∈ ts, t.IsInherited := by
  refine Traced.ends_traverse fun entry hentry => ?_
  obtain ⟨clause, hclause, hentry⟩ := List.mem_flatMap.mp hentry
  have inside := Cursor.mem_places_of_named (List.mem_filter.mp hclause).1
  obtain ⟨hentry, kind⟩ := List.mem_filter.mp hentry
  have heritage := Cursor.inHeritageClause_of_kind (beq_iff_eq.mp kind)
  exact (reads_heritage path heritage).below
    (Cursor.mem_places_trans inside (Cursor.mem_places_of_named hentry))

theorem isInherited_withLastArguments {arguments types : List Decl}
    (hargs : ∀ a ∈ arguments, a.TypeExpr) (h : ∀ t ∈ types, t.IsInherited) :
    ∀ t ∈ withLastArguments arguments types, t.IsInherited := by
  fun_induction withLastArguments arguments types with
  | case1 => exact h
  | case2 base old =>
      obtain ⟨name, _, same, -⟩ := h _ List.mem_cons_self
      cases same
      intro t ht
      rw [List.mem_singleton.mp ht]
      exact ⟨name, arguments, rfl, hargs⟩
  | case3 d ds _ ih =>
      obtain ⟨hd, hds⟩ := List.forall_mem_cons.mp h
      exact List.forall_mem_cons.mpr ⟨hd, ih hds⟩

theorem reads_extended {types : List Decl} (h : ∀ t ∈ types, t.IsInherited) :
    Reads path c (addExtended path types c) fun ts => ∀ t ∈ ts, t.IsInherited := by
  unfold addExtended
  split
  case isTrue kind =>
      have heritage := Cursor.inHeritageClause_of_kind (beq_iff_eq.mp kind)
      refine (reads_heritage path heritage).bind fun type htype => Traced.ends_done ?_
      exact List.forall_mem_append.mpr ⟨h, List.forall_mem_singleton.mpr htype⟩
  case isFalse =>
      split
      · have each : ∀ a ∈ c.named, Reads path c (readType path a) Decl.TypeExpr := fun a ha =>
          (reads_type path a).below (Cursor.mem_places_of_named ha)
        refine (Traced.ends_traverse each).bind fun _ args => ?_
        exact Traced.ends_done (isInherited_withLastArguments args h)
      · exact Traced.ends_done h

theorem reads_clause {types : List Decl} (h : ∀ t ∈ types, t.IsInherited) :
    Reads path c (addClause path types c) fun ts => ∀ t ∈ ts, t.IsInherited := by
  unfold addClause
  split
  case isTrue implements =>
      have each : ∀ t ∈ c.named, Reads path c (readHeritage path t) Decl.IsInherited := by
        intro t ht
        have heritage : isHeritageClause c.type = true := by simp [isHeritageClause, implements]
        exact (reads_heritage path (Cursor.inHeritageClause_of_mem_named ht heritage)).below
          (Cursor.mem_places_of_named ht)
      refine (Traced.ends_traverse each).bind fun _ more => ?_
      exact Traced.ends_done (List.forall_mem_append.mpr ⟨h, more⟩)
  case isFalse =>
      split
      · refine Traced.ends_fold h fun ts t ht hts => ?_
        exact (reads_extended path hts).below (Cursor.mem_places_of_named ht)
      · exact Traced.ends_done h

theorem reads_classHeritage :
    Reads path c (readClassHeritage path c) fun ts => ∀ t ∈ ts, t.IsInherited := by
  unfold readClassHeritage
  split
  case h_1 => exact Traced.ends_done nofun
  case h_2 heritage found =>
      have inside := Cursor.mem_places_of_named (List.mem_of_find?_eq_some found)
      refine Traced.ends_fold nofun fun ts clause hclause hts => ?_
      exact (reads_clause path hts).below
        (Cursor.mem_places_trans inside (Cursor.mem_places_of_named hclause))

end

/-! ## Statements -/

section

variable (path : String) {c : Cursor}

theorem reads_interface : Reads path c (readInterface path c) Interface.Formed := by
  unfold readInterface
  refine (reads_interfaceHeritage path).bind fun _ inherits => ?_
  refine (reads_members path fun _ => mem_places_of_body?).bind fun _ members => ?_
  exact Traced.ends_done ⟨rfl, fun _ => isName_of_mem_readTypeParams, inherits, members⟩

theorem reads_class : Reads path c (readClass path c) Interface.Formed := by
  unfold readClass
  refine (reads_classHeritage path).bind fun _ inherits => ?_
  refine (reads_members path fun _ => mem_places_of_body?).bind fun _ members => ?_
  exact Traced.ends_done ⟨rfl, fun _ => isName_of_mem_readTypeParams, inherits, members⟩

theorem reads_alias (kind : c.kind = .typeAliasDeclaration) :
    Reads path c (readAlias path c) Decl.EntryForm := by
  unfold readAlias
  split
  case h_1 none =>
      have empty : c.isEmptyAlias = true := by
        have type := beq_iff_eq.mp (Cursor.fits_of_kind kind nofun)
        have fields := Option.or_eq_none_iff.mp none
        simp [Cursor.isEmptyAlias, type, fields.1, List.getLast?_eq_none_iff.mp fields.2]
      exact Traced.ends_fail (.here (.emptyAlias empty))
  case h_2 value found =>
      have type := (reads_type path value).below (mem_places_of_aliasValue? found)
      refine type.bind fun _ htype => ?_
      split
      · exact Traced.ends_done (.enum _)
      · exact Traced.ends_done (.typeAlias (fun _ => isName_of_mem_readTypeParams) htype)

theorem reads_variable (modifiers : Modifiers) :
    Reads path c (readVariable path c modifiers) Decl.EntryForm := by
  unfold readVariable
  split
  case h_1 => exact Traced.ends_note_bind (Traced.ends_done .todo)
  case h_2 binding others bindings =>
      have hbinding : binding ∈ c.named := by
        have first : binding ∈ binding :: others := List.mem_cons_self
        rw [← bindings] at first
        exact (List.mem_filter.mp first).1
      have type : Reads path c (readField path binding "type" .obj) Decl.TypeExpr :=
        (reads_field path binding "type" (.named _) fun _ => id).below
          (Cursor.mem_places_of_named hbinding)
      have rest : Reads path c
          (do
            let type ← readField path binding "type" .obj
            .done (.var ⟨modifiers.declared, binding.fieldText "name", type⟩)) Decl.EntryForm :=
        type.bind fun _ htype => Traced.ends_done (.var htype)
      split
      · exact Traced.ends_note_bind rest
      · exact rest

theorem reads_function : Reads path c (readFunction path c) fun s =>
    (Decl.function s).EntryForm := by
  unfold readFunction
  refine (reads_allParams path c).bind fun _ params => ?_
  refine (reads_functionResult path c).bind fun _ result => ?_
  exact Traced.ends_done
    (.function ⟨fun _ => isName_of_mem_readTypeParams, params, result⟩ rfl rfl)

theorem reads_plainStatement (modifiers : Modifiers) :
    Reads path c (readPlainStatement path c modifiers) Decl.EntryForm := by
  unfold readPlainStatement
  split
  case h_1 => exact (reads_interface path).bind fun _ h => Traced.ends_done (.interface h)
  case h_2 => exact (reads_class path).bind fun _ h => Traced.ends_done (.interface h)
  case h_3 => exact Traced.ends_done (.enum _)
  case h_4 kind => exact reads_alias path kind
  case h_5 => exact reads_variable path modifiers
  case h_6 => exact (reads_function path).bind fun _ => Traced.ends_done
  case h_7 => exact Traced.ends_note_bind (Traced.ends_done .absent)
  case h_8 => exact Traced.ends_note_bind (Traced.ends_done .todo)
  case h_9 => exact Traced.ends_note_bind (Traced.ends_done .todo)
  case h_10 => exact Traced.ends_note_bind (Traced.ends_done .todo)
  case h_11 => exact Traced.ends_note_bind (Traced.ends_done .todo)

theorem entryForm_nestModules {entries : List Decl} (h : ∀ e ∈ entries, e.EntryForm)
    (names : List String) : (nestModules entries names).EntryForm := by
  fun_induction nestModules entries names with
  | case1 => exact .module h
  | case2 => exact .module h
  | case3 name names _ ih =>
      refine .module fun e he => ?_
      rw [List.mem_singleton.mp he]
      exact ih

end

/-- Trivia is read to nothing, and any other statement to an entry. -/
structure StatementForm (c : Cursor) (d? : Option Decl) : Prop where
  isNone : d?.isNone = isTrivia c.unwrapStatement.1
  entry : ∀ d, d? = some d -> d.EntryForm

theorem forall_mem_filterMap_id {P : Decl -> Prop} {entries : List (Option Decl)}
    (h : ∀ d? ∈ entries, ∀ d, d? = some d -> P d) : ∀ d ∈ entries.filterMap id, P d := by
  intro d hd
  obtain ⟨d?, hd?, same⟩ := List.mem_filterMap.mp hd
  exact h d? hd? d same

theorem reads_module (path : String) {c : Cursor}
    (smaller : ∀ s : Cursor, s.size < c.size ->
      Reads path s (readStatement path s) (StatementForm s)) :
    Reads path c (readModule path c) Decl.EntryForm := by
  rw [readModule]
  have each : ∀ s ∈ moduleStatements c,
      Reads path c (readStatement path s) fun d? => ∀ d, d? = some d -> d.EntryForm := by
    intro s hs
    have statement := smaller s (size_lt_of_mem_moduleStatements hs)
    exact (statement.below (mem_places_of_moduleStatements hs)).imp fun _ form => form.entry
  refine (Traced.ends_traverseMem each).bind fun _ entries => ?_
  exact Traced.ends_done (entryForm_nestModules (forall_mem_filterMap_id entries) _)

theorem reads_statement (path : String) (c : Cursor) :
    Reads path c (readStatement path c) (StatementForm c) := by
  have inside := c.unwrapStatement_mem_places
  have size := c.size_unwrapStatement_le
  have smaller : ∀ s : Cursor, s.size < c.unwrapStatement.1.size ->
      Reads path s (readStatement path s) (StatementForm s) := fun s _ => reads_statement path s
  have some : ∀ {d : Decl}, isTrivia c.unwrapStatement.1 = false -> d.EntryForm ->
      StatementForm c (some d) := by
    intro d notTrivia form
    refine ⟨by rw [notTrivia, Option.isNone_some], ?_⟩
    rintro _ ⟨⟩
    exact form
  rw [readStatement]
  cases trivia : isTrivia c.unwrapStatement.1 with
  | true => exact Traced.ends_done ⟨by rw [trivia, Option.isNone_none], nofun⟩
  | false =>
      split
      · exact absurd ‹_› (by simp)
      · split
        · refine Traced.Ends.bind ((reads_module path smaller).below inside) fun _ form => ?_
          exact Traced.ends_done (some trivia form)
        · refine Traced.Ends.bind ((reads_plainStatement path _).below inside) fun _ form => ?_
          exact Traced.ends_done (some trivia form)
termination_by c.size
decreasing_by omega

theorem reads_declarations (path : String) (tree : Node) :
    Reads path (.root tree) (readDeclarations path tree) fun ds => ∀ d ∈ ds, d.EntryForm := by
  have each : ∀ s ∈ (Cursor.root tree).named,
      Reads path (.root tree) (readStatement path s) fun d? => ∀ d, d? = some d -> d.EntryForm :=
    fun s hs => ((reads_statement path s).below (Cursor.mem_places_of_named hs)).imp
      fun _ form => form.entry
  refine (Traced.ends_traverse each).bind fun _ entries => ?_
  exact Traced.ends_done (forall_mem_filterMap_id entries)

/-- Whatever tree declarations are read from, they are of the form of entries. -/
theorem readDeclarations_entryForm (path : String) (tree : Node) {ds : List Decl}
    (h : (readDeclarations path tree).outcome = .ok ds) : ∀ d ∈ ds, d.EntryForm :=
  (reads_declarations path tree).ok ds h

def spelled (type : String) (field : Option String) (line : Nat) (text : String)
    (children : List Node) : Node :=
  ⟨type, true, field, ⟨0, 0, line, text⟩, children⟩

/-- Outcomes are compared as options, where errors need not be compared. -/
theorem ok_of_toOption {ε α : Type} {x : Except ε α} {a : α} (h : x.toOption = some a) :
    x = .ok a := by
  cases x with
  | ok b => rw [Option.some.inj h]
  | error e => cases h

theorem error_of_toOption {ε α : Type} {x : Except ε α} (h : x.toOption = none) :
    ∃ e, x = .error e := by
  cases x with
  | ok a => cases h
  | error e => exact ⟨e, rfl⟩

/-- An exported interface that extends `base`, with an indexer, a construction and
a property, then an empty statement and an alias. -/
def shapeTree (base : String) : Node :=
  spelled "program" none 1 "" [
    spelled "export_statement" none 1 "" [
      spelled "interface_declaration" (some "declaration") 1 "" [
        spelled "type_identifier" (some "name") 1 "Shape" [],
        spelled "extends_type_clause" none 1 "" [spelled "type_identifier" none 2 base []],
        spelled "interface_body" (some "body") 2 "" [
          spelled "index_signature" none 3 "" [
            spelled "identifier" (some "name") 3 "key" [],
            spelled "predefined_type" (some "index_type") 3 "string" []],
          spelled "construct_signature" none 4 "" [],
          spelled "property_signature" none 5 "" [
            spelled "property_identifier" (some "name") 5 "corners" [],
            spelled "type_annotation" (some "type") 5 "" [
              spelled "union_type" none 5 "" [
                spelled "type_identifier" none 5 "Corner" [],
                spelled "null" none 5 "null" []]]]]]],
    spelled "empty_statement" none 6 ";" [],
    spelled "type_alias_declaration" none 7 "" [
      spelled "type_identifier" (some "name") 7 "Shapes" [],
      spelled "array_type" (some "value") 7 "" [spelled "type_identifier" none 7 "Shape" []]]]

def shapeEntries : List Decl :=
  [.interface ⟨false, "Shape", [], [.generic (.named "Base") []], [
      .property ⟨some indexerTemplate, false, some ⟨"key", false, false, .named "string"⟩, "Item",
        false, .absent⟩,
      .function ⟨some createTemplate, true, some "Create", [], [], .self⟩,
      .property ⟨none, false, none, "corners", false, .union true [.named "Corner"]⟩]⟩,
    .typeAlias ⟨"Shapes", .array (.named "Shape"), []⟩]

theorem shapeTree_entryForm :
    (readDeclarations "shape.d.ts" (shapeTree "Base")).outcome = .ok shapeEntries ∧
      ∀ d ∈ shapeEntries, d.EntryForm := by
  have value : (readDeclarations "shape.d.ts" (shapeTree "Base")).outcome.toOption =
      some shapeEntries := by
    decide +kernel
  have read : (readDeclarations "shape.d.ts" (shapeTree "Base")).outcome = .ok shapeEntries := by
    cases outcome : (readDeclarations "shape.d.ts" (shapeTree "Base")).outcome with
    | ok ds =>
        rw [outcome] at value
        cases value
        rfl
    | error e =>
        rw [outcome] at value
        cases value
  exact ⟨read, readDeclarations_entryForm "shape.d.ts" (shapeTree "Base") read⟩

/-! ## One declaration for each statement -/

theorem Traced.map_outcome_of_traverse {ω ε α β : Type} {f : α -> Traced ω ε β} {as : List α}
    {bs : List β} (h : (traverse f as).outcome = .ok bs) :
    as.map (fun a => (f a).outcome) = bs.map .ok := by
  induction as generalizing bs with
  | nil =>
      cases h
      rfl
  | cons a as ih =>
      rw [traverse] at h
      obtain ⟨b, first, h⟩ := ok_of_bind h
      obtain ⟨bs, rest, ⟨⟩⟩ := ok_of_bind h
      rw [List.map_cons, List.map_cons, first, ih rest]

theorem map_filter_of_agree {ε α β : Type} {f : α -> Except ε β} {p : α -> Bool} {q : β -> Bool}
    {as : List α} {bs : List β} (h : as.map f = bs.map .ok)
    (agree : ∀ a ∈ as, ∀ b, f a = .ok b -> q b = p a) :
    (as.filter p).map f = (bs.filter q).map .ok := by
  induction as generalizing bs with
  | nil =>
      cases bs with
      | nil => rfl
      | cons b bs => cases h
  | cons a as ih =>
      cases bs with
      | nil => cases h
      | cons b bs =>
          obtain ⟨first, rest⟩ := List.cons.inj h
          obtain ⟨same, others⟩ := List.forall_mem_cons.mp agree
          rw [List.filter_cons, List.filter_cons, same b first]
          split
          · rw [List.map_cons, List.map_cons, first, ih rest others]
          · exact ih rest others

theorem map_outcome_filter {ε α β : Type} {f : α -> Except ε (Option β)} {skip : α -> Bool}
    {as : List α} {bs : List (Option β)} (h : as.map f = bs.map .ok)
    (skips : ∀ a ∈ as, ∀ b, f a = .ok b -> b.isNone = skip a) :
    (as.filter fun a => !skip a).map f = (bs.filterMap id).map fun b => .ok (some b) := by
  have agree : ∀ a ∈ as, ∀ b, f a = .ok b -> b.isSome = !skip a := by
    intro a ha b hb
    rw [← skips a ha b hb, Option.not_isNone]
  rw [map_filter_of_agree h agree, List.map_filterMap, ← List.filterMap_eq_filter,
    List.map_filterMap]
  congr 1
  funext b
  cases b <;> rfl

/-- A statement is trivia by its type, unless it is a comment without a wrapper. -/
theorem isTrivia_unwrapStatement {c : Cursor} (h : c.type ≠ "comment") :
    isTrivia c.unwrapStatement.1 =
      (c.unwrapStatement.1.type == "comment" || c.unwrapStatement.1.type == "empty_statement") := by
  unfold isTrivia
  congr 1
  rcases c.unwrapStatement_cases with same | outside
  · have notComment : c.kind ≠ .comment := by
      intro kind
      exact h (beq_iff_eq.mp (Cursor.fits_of_kind kind nofun))
    rw [same, beq_eq_false_iff_ne.mpr notComment, beq_eq_false_iff_ne.mpr h]
  · rw [Bool.eq_iff_iff, beq_iff_eq, beq_iff_eq]
    exact Cursor.kind_eq_comment_iff outside

theorem map_outcome_readStatement {path : String} {tree : Node} {ds : List Decl}
    (h : (readDeclarations path tree).outcome = .ok ds) :
    ((Cursor.root tree).named.filter fun c => !isTrivia c.unwrapStatement.1).map
      (fun c => (readStatement path c).outcome) = ds.map fun d => .ok (some d) := by
  obtain ⟨entries, read, ⟨⟩⟩ := Traced.ok_of_bind h
  refine map_outcome_filter (Traced.map_outcome_of_traverse read) ?_
  exact fun c _ d? statement => ((reads_statement path c).ok d? statement).isNone

/-- A tree whose aliases all have something in them is read unless a name is
missing. Every error has the place of a missing name. And what is read has one
declaration for each statement that is no trivia, in order. -/
theorem readDeclarations_degrades (path : String) (tree : Node)
    (aliases : ∀ c ∈ (Cursor.root tree).places, c.type = "type_alias_declaration" ->
      (c.field? "value").isSome = true ∨ c.named.isEmpty = false) :
    ((∀ c ∈ (Cursor.root tree).places, c.isNameless = false) ->
      ∃ ds, (readDeclarations path tree).outcome = .ok ds) ∧
    (∀ e, (readDeclarations path tree).outcome = .error e ->
      ∃ c ∈ (Cursor.root tree).places, c.isNameless = true ∧
        e.diagnostic? = some ⟨e.message, some path, some c.line⟩) ∧
    ∀ ds, (readDeclarations path tree).outcome = .ok ds ->
      ((Cursor.root tree).named.filter fun c =>
        c.unwrapStatement.1.type != "comment" &&
          c.unwrapStatement.1.type != "empty_statement").map
        (fun c => (readStatement path c).outcome) = ds.map fun d => .ok (some d) := by
  have blamed : ∀ e, (readDeclarations path tree).outcome = .error e ->
      ∃ c ∈ (Cursor.root tree).places, c.isNameless = true ∧
        e.diagnostic? = some ⟨e.message, some path, some c.line⟩ := by
    intro e he
    obtain ⟨c, hc, arises⟩ := (reads_declarations path tree).error e he
    cases arises with
    | unnamed nameless site =>
        exact ⟨c, hc, nameless, by rw [ReadError.diagnostic?, site]; rfl⟩
    | emptyAlias empty =>
        simp only [Cursor.isEmptyAlias, Bool.and_eq_true, beq_iff_eq] at empty
        obtain ⟨⟨type, value⟩, named⟩ := empty
        rcases aliases c hc type with some | nonempty
        · rw [Option.isNone_iff_eq_none.mp value] at some
          cases some
        · rw [named] at nonempty
          cases nonempty
  refine ⟨?_, blamed, ?_⟩
  · intro named
    cases outcome : (readDeclarations path tree).outcome with
    | ok ds => exact ⟨ds, rfl⟩
    | error e =>
        obtain ⟨c, hc, nameless, -⟩ := blamed e outcome
        rw [named c hc] at nameless
        cases nameless
  · intro ds hds
    have kept : ∀ c ∈ (Cursor.root tree).named,
        (c.unwrapStatement.1.type != "comment" &&
          c.unwrapStatement.1.type != "empty_statement") = !isTrivia c.unwrapStatement.1 := by
      intro c hc
      have notComment : c.type ≠ "comment" := by
        have filter := (List.mem_filter.mp hc).2
        simp_all
      rw [isTrivia_unwrapStatement notComment, Bool.not_or]
      rfl
    rw [List.filter_congr kept]
    exact map_outcome_readStatement hds

theorem shapeTree_degrades :
    (∀ base ∈ ["Base", ""], ∀ c ∈ (Cursor.root (shapeTree base)).places,
      c.type = "type_alias_declaration" ->
        (c.field? "value").isSome = true ∨ c.named.isEmpty = false) ∧
    (∀ c ∈ (Cursor.root (shapeTree "Base")).places, c.isNameless = false) ∧
    (∃ ds, (readDeclarations "shape.d.ts" (shapeTree "Base")).outcome = .ok ds ∧
      ((Cursor.root (shapeTree "Base")).named.filter fun c =>
        c.unwrapStatement.1.type != "comment" &&
          c.unwrapStatement.1.type != "empty_statement").map
        (fun c => (readStatement "shape.d.ts" c).outcome) = ds.map fun d => .ok (some d)) ∧
    ∃ e, (readDeclarations "shape.d.ts" (shapeTree "")).outcome = .error e ∧
      ∃ c ∈ (Cursor.root (shapeTree "")).places, c.isNameless = true ∧
        e.diagnostic? = some ⟨e.message, some "shape.d.ts", some c.line⟩ := by
  have aliases : ∀ base ∈ ["Base", ""], ∀ c ∈ (Cursor.root (shapeTree base)).places,
      c.type = "type_alias_declaration" ->
        (c.field? "value").isSome = true ∨ c.named.isEmpty = false := by
    decide
  have named : ∀ c ∈ (Cursor.root (shapeTree "Base")).places, c.isNameless = false := by
    decide +kernel
  have fails : (readDeclarations "shape.d.ts" (shapeTree "")).outcome.toOption = none := by
    decide +kernel
  obtain ⟨returns, -, statements⟩ :=
    readDeclarations_degrades "shape.d.ts" (shapeTree "Base") (aliases "Base" (by decide))
  obtain ⟨-, blamed, -⟩ :=
    readDeclarations_degrades "shape.d.ts" (shapeTree "") (aliases "" (by decide))
  obtain ⟨ds, read⟩ := returns named
  obtain ⟨e, outcome⟩ := error_of_toOption fails
  exact ⟨aliases, named, ⟨ds, read, statements ds read⟩, e, outcome, blamed e outcome⟩

end Bindgen

import Bindgen.Proofs.Reading.Positions
import Bindgen.Proofs.Reading.Wrappers

/-! # Statements do not depend on positions

What is read from a statement is the same for a tree and for the tree without its
positions, whatever file it is from. This follows the readers of members, of inherited
types and of statements, on top of the one for types.
-/

namespace Bindgen

open Syntax

namespace Traced

variable {ω ε α β γ : Type}

theorem value?_map (f : α -> β) (x : Traced ω ε α) : (f <$> x).value? = x.value?.map f := by
  obtain ⟨events, outcome⟩ := x
  cases outcome <;> rfl

theorem value?_note (event : ω) : (note event : Traced ω ε Unit).value? = some () := rfl

theorem value?_fold_map {f : γ -> α -> Traced ω ε γ} {g : γ -> β -> Traced ω ε γ} {h : α -> β}
    {as : List α} (same : ∀ c, ∀ a ∈ as, (g c (h a)).value? = (f c a).value?) (c : γ) :
    (fold g c (as.map h)).value? = (fold f c as).value? := by
  induction as generalizing c with
  | nil => rfl
  | cons a as ih =>
      rw [List.map_cons, fold, fold, value?_bind, value?_bind, same c a List.mem_cons_self]
      congr 1
      funext next
      exact ih (fun c a ha => same c a (List.mem_cons_of_mem _ ha)) next

end Traced

section

variable (path other : String) (c : Cursor)

/-! ## Members -/

theorem value?_field_unplaced (name : String) (default : Decl) :
    (readField path c.unplaced name default).value? = (readField other c name default).value? :=
  value?_readField_unplaced (fun p _ => value?_readType_unplaced path other p) (Nat.le_refl c.size)
    name default

theorem value?_params_unplaced :
    (readParams path c.unplaced).value? = (readParams other c).value? :=
  value?_readParams_unplaced (fun p _ => value?_readType_unplaced path other p)
    (Nat.le_refl c.size)

theorem value?_result_unplaced :
    (readResult path c.unplaced).value? = (readResult other c).value? :=
  value?_readResult_unplaced (fun p _ => value?_readType_unplaced path other p)
    (Nat.le_refl c.size)

theorem value?_types_unplaced (cs : List Cursor) :
    (Traced.traverse (readType path) (cs.map Cursor.unplaced)).value? =
      (Traced.traverse (readType other) cs).value? :=
  Traced.value?_traverse_map fun c _ => value?_readType_unplaced path other c

theorem memberName_unplaced : memberName c.unplaced = memberName c := by
  rw [memberName, Cursor.fieldText_unplaced, memberName]

theorem value?_readIndexSignature_unplaced :
    (readIndexSignature path c.unplaced).value? = (readIndexSignature other c).value? := by
  unfold readIndexSignature
  rw [Cursor.field?_unplaced]
  cases c.field? "name" with
  | none => rfl
  | some name =>
      simp only [Option.map_some, Traced.value?_bind, value?_field_unplaced path other,
        Cursor.field?_unplaced, Option.map_map, Function.comp_def, Cursor.type_unplaced,
        Cursor.text_unplaced, Traced.value?_done]

theorem value?_readAccessor_unplaced :
    (readAccessor path c.unplaced).value? = (readAccessor other c).value? := by
  unfold readAccessor readAccessorType
  rw [Cursor.hasToken_unplaced, Cursor.hasToken_unplaced, Cursor.hasToken_unplaced,
    memberName_unplaced]
  split
  · simp only [Traced.value?_bind, value?_field_unplaced path other, Traced.value?_done]
  · simp only [Traced.value?_bind, value?_params_unplaced path other, Traced.value?_done]

theorem value?_readPlainMember_unplaced :
    (readPlainMember path c.unplaced).value? = (readPlainMember other c).value? := by
  unfold readPlainMember
  rw [Cursor.kind_unplaced]
  split
  case h_1 => exact value?_readIndexSignature_unplaced path other c
  all_goals
    simp only [readMethod, readProperty, readCallSignature, readConstructSignature,
      noteUnsupported, Traced.value?_bind, value?_field_unplaced path other,
      value?_params_unplaced path other, value?_result_unplaced path other,
      readTypeParams_unplaced, memberName_unplaced, Cursor.hasToken_unplaced, Traced.value?_done,
      Traced.value?_note]

theorem value?_readMembersAfter_unplaced (accessors : List String) (cs : List Cursor) :
    (readMembersAfter path accessors (cs.map Cursor.unplaced)).value? =
      (readMembersAfter other accessors cs).value? := by
  induction cs generalizing accessors with
  | nil => rfl
  | cons c cs ih =>
      rw [List.map_cons, readMembersAfter, readMembersAfter, Cursor.kind_unplaced]
      split
      · rw [Traced.value?_bind, Traced.value?_bind, value?_readAccessor_unplaced path other]
        congr 1
        funext property
        split
        · exact ih accessors
        · simp only [Traced.value?_bind, ih]
      · simp only [Traced.value?_bind, value?_readPlainMember_unplaced path other, ih]

theorem memberNodes_unplaced (body : Option Cursor) :
    memberNodes (body.map Cursor.unplaced) = (memberNodes body).map Cursor.unplaced := by
  cases body with
  | none => rfl
  | some body => simp [memberNodes, List.filter_map, Function.comp_def]

theorem value?_readMembers_unplaced (body : Option Cursor) :
    (readMembers path (body.map Cursor.unplaced)).value? = (readMembers other body).value? := by
  rw [readMembers, memberNodes_unplaced, value?_readMembersAfter_unplaced path other, readMembers]

/-! ## Inherited types -/

theorem value?_readHeritage_unplaced :
    (readHeritage path c.unplaced).value? = (readHeritage other c).value? := by
  have name : heritageName c.unplaced = heritageName c := by
    simp only [heritageName, Cursor.type_unplaced, Cursor.fieldText_unplaced,
      Cursor.text_unplaced]
  have arguments : heritageArguments c.unplaced = (heritageArguments c).map Cursor.unplaced := by
    simp only [heritageArguments, Cursor.type_unplaced, Cursor.fieldNamed_unplaced,
      apply_ite (List.map Cursor.unplaced), List.map_nil]
  unfold readHeritage
  rw [name, arguments]
  split
  · rfl
  · rw [Traced.value?_bind, Traced.value?_bind, value?_types_unplaced path other]

theorem heritageEntries_unplaced :
    heritageEntries c.unplaced = (heritageEntries c).map Cursor.unplaced := by
  simp only [heritageEntries, Cursor.named_unplaced, List.filter_map, Function.comp_def,
    Cursor.kind_unplaced]

theorem value?_readInterfaceHeritage_unplaced :
    (readInterfaceHeritage path c.unplaced).value? = (readInterfaceHeritage other c).value? := by
  have clauses : (c.unplaced.named.filter fun clause =>
        clause.type == "extends_type_clause").flatMap heritageEntries =
      ((c.named.filter fun clause => clause.type == "extends_type_clause").flatMap
        heritageEntries).map Cursor.unplaced := by
    simp only [Cursor.named_unplaced, List.filter_map, Function.comp_def, Cursor.type_unplaced,
      List.flatMap_map, List.map_flatMap, heritageEntries_unplaced]
  unfold readInterfaceHeritage
  simp only [clauses]
  exact Traced.value?_traverse_map fun entry _ => value?_readHeritage_unplaced path other entry

theorem value?_addExtended_unplaced (types : List Decl) :
    (addExtended path types c.unplaced).value? = (addExtended other types c).value? := by
  unfold addExtended
  rw [Cursor.kind_unplaced, Cursor.type_unplaced, Cursor.named_unplaced]
  split
  · rw [Traced.value?_bind, Traced.value?_bind, value?_readHeritage_unplaced path other]
  · split
    · rw [Traced.value?_bind, Traced.value?_bind, value?_types_unplaced path other]
    · rfl

theorem value?_addClause_unplaced (types : List Decl) :
    (addClause path types c.unplaced).value? = (addClause other types c).value? := by
  unfold addClause
  rw [Cursor.type_unplaced, Cursor.named_unplaced]
  split
  · rw [Traced.value?_bind, Traced.value?_bind, Traced.value?_traverse_map]
    exact fun entry _ => value?_readHeritage_unplaced path other entry
  · split
    · exact Traced.value?_fold_map
        (fun types entry _ => value?_addExtended_unplaced path other entry types) types
    · rfl

theorem value?_readClassHeritage_unplaced :
    (readClassHeritage path c.unplaced).value? = (readClassHeritage other c).value? := by
  unfold readClassHeritage
  simp only [Cursor.named_unplaced, List.find?_map, Function.comp_def, Cursor.type_unplaced]
  cases c.named.find? fun child => child.type == "class_heritage" with
  | none => rfl
  | some heritage =>
      simp only [Option.map_some, Cursor.named_unplaced]
      exact Traced.value?_fold_map
        (fun types clause _ => value?_addClause_unplaced path other clause types) []

/-! ## Statements -/

theorem body?_unplaced (isBody : String -> Bool) :
    body? c.unplaced isBody = (body? c isBody).map Cursor.unplaced := by
  simp only [body?, Cursor.field?_unplaced, Cursor.children_unplaced, List.find?_map,
    Function.comp_def, Cursor.type_unplaced]
  cases c.field? "body" <;> simp

theorem value?_readInterface_unplaced :
    (readInterface path c.unplaced).value? = (readInterface other c).value? := by
  simp only [readInterface, Traced.value?_bind, value?_readInterfaceHeritage_unplaced path other,
    body?_unplaced, value?_readMembers_unplaced path other, Cursor.fieldText_unplaced,
    readTypeParams_unplaced, Traced.value?_done]

theorem value?_readClass_unplaced :
    (readClass path c.unplaced).value? = (readClass other c).value? := by
  simp only [readClass, className, Traced.value?_bind,
    value?_readClassHeritage_unplaced path other, body?_unplaced,
    value?_readMembers_unplaced path other, Cursor.fieldText_unplaced, readTypeParams_unplaced,
    Traced.value?_done]

theorem readEnumCase_unplaced : readEnumCase c.unplaced = readEnumCase c := by
  unfold readEnumCase
  rw [Cursor.type_unplaced, Cursor.text_unplaced, Cursor.field?_unplaced, memberName_unplaced]
  cases c.field? "value" <;> simp

theorem readEnum_unplaced : readEnum c.unplaced = readEnum c := by
  simp only [readEnum, Cursor.fieldText_unplaced, Cursor.fieldNamed_unplaced, List.map_map,
    Function.comp_def, readEnumCase_unplaced]

theorem value?_readAlias_unplaced :
    (readAlias path c.unplaced).value? = (readAlias other c).value? := by
  have value : aliasValue? c.unplaced = (aliasValue? c).map Cursor.unplaced := by
    simp only [aliasValue?, Cursor.field?_unplaced, Cursor.named_unplaced, List.getLast?_map]
    cases c.field? "value" <;> simp
  unfold readAlias
  rw [value]
  cases aliasValue? c with
  | none => rfl
  | some type =>
      simp only [Option.map_some, Traced.value?_bind, value?_readType_unplaced path other,
        Cursor.fieldText_unplaced, readTypeParams_unplaced]

theorem value?_readVariable_unplaced (modifiers : Modifiers) :
    (readVariable path c.unplaced modifiers).value? = (readVariable other c modifiers).value? := by
  unfold readVariable
  simp only [Cursor.named_unplaced, List.filter_map, Function.comp_def, Cursor.type_unplaced]
  cases c.named.filter fun child => child.type == "variable_declarator" with
  | nil => rfl
  | cons binding others =>
      rw [List.map_cons]
      simp only [List.isEmpty_map]
      split <;>
        simp only [Traced.value?_bind, value?_field_unplaced path other,
          Cursor.fieldText_unplaced, Traced.value?_note, Traced.value?_done]

theorem value?_readFunction_unplaced :
    (readFunction path c.unplaced).value? = (readFunction other c).value? := by
  simp only [readFunction, functionName?, Traced.value?_bind, value?_params_unplaced path other,
    value?_result_unplaced path other, Cursor.fieldText_unplaced, readTypeParams_unplaced,
    Traced.value?_done]

theorem value?_readPlainStatement_unplaced (modifiers : Modifiers) :
    (readPlainStatement path c.unplaced modifiers).value? =
      (readPlainStatement other c modifiers).value? := by
  unfold readPlainStatement
  rw [Cursor.kind_unplaced]
  split
  case h_1 => simp only [Traced.value?_bind, value?_readInterface_unplaced path other,
    Traced.value?_done]
  case h_2 => simp only [Traced.value?_bind, value?_readClass_unplaced path other,
    Traced.value?_done]
  case h_3 => rw [readEnum_unplaced]
  case h_4 => exact value?_readAlias_unplaced path other c
  case h_5 => exact value?_readVariable_unplaced path other c modifiers
  case h_6 => simp only [Traced.value?_bind, value?_readFunction_unplaced path other,
    Traced.value?_done]
  all_goals rfl

/-! ## Modules -/

theorem moduleNames_unplaced : moduleNames c.unplaced = moduleNames c := by
  unfold moduleNames
  rw [Cursor.type_unplaced, Cursor.field?_unplaced]
  cases c.field? "name" <;> simp [moduleName]

theorem moduleStatements_unplaced :
    moduleStatements c.unplaced = (moduleStatements c).map Cursor.unplaced := by
  have body : moduleBody? c.unplaced = (moduleBody? c).map Cursor.unplaced := by
    simp only [moduleBody?, Cursor.type_unplaced, Cursor.children_unplaced, List.find?_map,
      Function.comp_def, Cursor.field?_unplaced, apply_ite (Option.map Cursor.unplaced)]
  unfold moduleStatements
  rw [body]
  cases moduleBody? c <;> simp

theorem isTrivia_unplaced : isTrivia c.unplaced = isTrivia c := by
  simp only [isTrivia, Cursor.kind_unplaced, Cursor.type_unplaced]

theorem wrapped?_unplaced : c.unplaced.wrapped? = c.wrapped?.map Cursor.unplaced := by
  simp only [Cursor.wrapped?, Cursor.type_unplaced, Cursor.field?_unplaced, Cursor.named_unplaced,
    List.find?_map, Function.comp_def, apply_ite (Option.map Cursor.unplaced), Option.map_none]

theorem readModule_eq :
    readModule path c =
      (fun entries => nestModules (entries.filterMap id) (moduleNames c)) <$>
        Traced.traverse (readStatement path) (moduleStatements c) := by
  rw [readModule, Traced.traverseMem_eq_traverse]
  rfl

end

/-- Positions and paths have no part in what a statement is read as. -/
theorem value?_readStatement_unplaced (path other : String) (c : Cursor) :
    (readStatement path c.unplaced).value? = (readStatement other c).value? := by
  cases wrapped : c.wrapped? with
  | some inner =>
      have := Cursor.size_lt_of_wrapped? wrapped
      have same : c.unplaced.wrapped? = some inner.unplaced := by
        rw [wrapped?_unplaced, wrapped]
        rfl
      rw [readStatement_of_wrapped? same, readStatement_of_wrapped? wrapped, Traced.value?_map,
        Traced.value?_map, value?_readStatement_unplaced path other inner, Cursor.type_unplaced]
  | none =>
      have same : c.unplaced.wrapped? = none := by
        rw [wrapped?_unplaced, wrapped]
        rfl
      have modules : (readModule path c.unplaced).value? = (readModule other c).value? := by
        rw [readModule_eq, readModule_eq, Traced.value?_map, Traced.value?_map,
          moduleNames_unplaced, moduleStatements_unplaced, Traced.value?_traverse_map]
        intro s hs
        have := size_lt_of_mem_moduleStatements hs
        exact value?_readStatement_unplaced path other s
      rw [readStatement_of_bare same, readStatement_of_bare wrapped, Cursor.type_unplaced,
        Traced.value?_map, Traced.value?_map]
      congr 1
      unfold readBareStatement
      rw [isTrivia_unplaced, Cursor.kind_unplaced]
      split
      · rfl
      · split
        · rw [Traced.value?_map, Traced.value?_map, modules]
        · rw [Traced.value?_map, Traced.value?_map, value?_readPlainStatement_unplaced path other]
termination_by c.size

end Bindgen

import Bindgen.Proofs.Reading.Declarations

/-! # Wrappers around a statement

A declaration can stand in any number of wrappers that export it, declare it or make
an expression of it. Each of them is looked through: the declaration, its events and
its errors are those of the bare statement. The one trace that wrappers leave is that
a variable in an ambient declaration is one that the script world provides.
-/

namespace Bindgen

open Syntax

/-- The declaration, marked as one that the script world does or does not provide. Only
a variable has such a mark. -/
def Decl.declaredAs (declared : Bool) : Decl -> Decl
  | .var v => .var { v with declared := declared }
  | d => d

@[simp] theorem Decl.declaredAs_declaredAs (outer inner : Bool) (d : Decl) :
    (d.declaredAs inner).declaredAs outer = d.declaredAs outer := by
  cases d <;> rfl

/-! ## The modifiers of a statement -/

section

variable (path : String) (c : Cursor) (modifiers : Modifiers)

theorem declaredAs_readAlias (declared : Bool) :
    Decl.declaredAs declared <$> readAlias path c = readAlias path c := by
  unfold readAlias
  split
  · rfl
  · rw [map_bind]
    congr 1
    funext type
    split <;> rfl

theorem readVariable_eq_declaredAs :
    readVariable path c modifiers =
      Decl.declaredAs modifiers.declared <$> readVariable path c .none := by
  unfold readVariable
  split
  · rfl
  · split
    · simp only [map_bind]
      rfl
    · rw [map_bind]
      rfl

/-- All that a reader makes of the modifiers is the mark of a variable. -/
theorem readPlainStatement_eq_declaredAs :
    readPlainStatement path c modifiers =
      Decl.declaredAs modifiers.declared <$> readPlainStatement path c .none := by
  unfold readPlainStatement
  split
  case h_3 => rfl
  case h_4 => exact (declaredAs_readAlias path c modifiers.declared).symm
  case h_5 => exact readVariable_eq_declaredAs path c modifiers
  all_goals
    simp only [map_bind]
    rfl

end

theorem declaredAs_readModule (declared : Bool) (path : String) (c : Cursor) :
    Decl.declaredAs declared <$> readModule path c = readModule path c := by
  rw [readModule, map_bind]
  congr 1
  funext entries
  rcases moduleNames c with _ | ⟨name, _ | ⟨inner, names⟩⟩ <;> rfl

def readBareStatement (path : String) (c : Cursor) : Reading (Option Decl) :=
  if isTrivia c then .done none
  else if c.kind == .moduleDeclaration then some <$> readModule path c
  else some <$> readPlainStatement path c .none

theorem readStatement_eq (path : String) (c : Cursor) :
    readStatement path c =
      Option.map (Decl.declaredAs c.unwrapStatement.2.declared) <$>
        readBareStatement path c.unwrapStatement.1 := by
  unfold readStatement readBareStatement
  simp only
  split
  · rfl
  · split
    · rw [← declaredAs_readModule c.unwrapStatement.2.declared]
      simp [Traced.map_eq_bind, Traced.done_bind]
    · rw [readPlainStatement_eq_declaredAs path _ c.unwrapStatement.2]
      simp [Traced.map_eq_bind, Traced.done_bind]

/-! ## One wrapper -/

section

variable {path : String} {c inner : Cursor}

theorem unwrapStatement_of_wrapped? (wrapped : c.wrapped? = some inner) :
    c.unwrapStatement = (inner.unwrapStatement.1, c.addModifier inner.unwrapStatement.2) := by
  rw [Cursor.unwrapStatement]
  split
  · simp_all
  · simp_all

theorem unwrapStatement_of_bare (bare : c.wrapped? = none) :
    c.unwrapStatement = (c, c.addModifier .none) := by
  rw [Cursor.unwrapStatement]
  split
  · rfl
  · simp_all

theorem declared_addModifier (c : Cursor) (m : Modifiers) :
    (c.addModifier m).declared = (c.type == "ambient_declaration" || m.declared) := by
  unfold Cursor.addModifier
  cases c.type == "ambient_declaration" with
  | true => rfl
  | false =>
      rw [if_neg Bool.false_ne_true]
      split <;> rfl

theorem readStatement_of_bare (bare : c.wrapped? = none) :
    readStatement path c =
      Option.map (Decl.declaredAs (c.type == "ambient_declaration")) <$>
        readBareStatement path c := by
  rw [readStatement_eq, unwrapStatement_of_bare bare, declared_addModifier]
  simp [Modifiers.none]

/-- A statement is read as the one inside its wrapper. -/
theorem readStatement_of_wrapped? (wrapped : c.wrapped? = some inner) :
    readStatement path c =
      Option.map (fun d => if c.type == "ambient_declaration" then d.declaredAs true else d) <$>
        readStatement path inner := by
  rw [readStatement_eq, readStatement_eq path inner, unwrapStatement_of_wrapped? wrapped,
    declared_addModifier]
  cases c.type == "ambient_declaration" <;> simp [Function.comp_def]

end

/-! ## All wrappers -/

inductive Wrapper where
  | exported
  | ambient
  | expression
deriving DecidableEq

/-- The statement `d` in a stack of wrappers, the outermost first. An ambient declaration
is about the first declaration or wrapper in it, and only an inner module can be an
expression. -/
inductive Syntax.Cursor.Wraps (d : Cursor) : List Wrapper -> Cursor -> Prop
  | bare : Wraps d [] d
  | exported {c inner : Cursor} {stack : List Wrapper} (type : c.type = "export_statement")
      (declaration : c.field? "declaration" = some inner) (inside : Wraps d stack inner) :
      Wraps d (.exported :: stack) c
  | ambient {c inner : Cursor} {stack : List Wrapper} {before after : List Cursor}
      (type : c.type = "ambient_declaration") (named : c.named = before ++ inner :: after)
      (first : ∀ b ∈ before, isDeclarable b.type = false)
      (declarable : isDeclarable inner.type = true) (inside : Wraps d stack inner) :
      Wraps d (.ambient :: stack) c
  | expression {c : Cursor} {before after : List Cursor} (type : c.type = "expression_statement")
      (named : c.named = before ++ d :: after)
      (first : ∀ b ∈ before, b.type ≠ "internal_module")
      (module : d.type = "internal_module") : Wraps d [.expression] c

section

variable {c d inner : Cursor}

theorem wrapped?_of_exported (type : c.type = "export_statement")
    (declaration : c.field? "declaration" = some inner) : c.wrapped? = some inner := by
  rw [Cursor.wrapped?, type]
  exact declaration

theorem wrapped?_of_ambient {before after : List Cursor} (type : c.type = "ambient_declaration")
    (named : c.named = before ++ inner :: after)
    (first : ∀ b ∈ before, isDeclarable b.type = false)
    (declarable : isDeclarable inner.type = true) : c.wrapped? = some inner := by
  rw [Cursor.wrapped?, type]
  refine List.find?_eq_some_iff_append.mpr ⟨declarable, before, after, named, ?_⟩
  intro b hb
  rw [first b hb, Bool.not_false]

theorem wrapped?_of_expression {before after : List Cursor}
    (type : c.type = "expression_statement") (named : c.named = before ++ inner :: after)
    (first : ∀ b ∈ before, b.type ≠ "internal_module") (module : inner.type = "internal_module") :
    c.wrapped? = some inner := by
  rw [Cursor.wrapped?, type]
  refine List.find?_eq_some_iff_append.mpr ⟨beq_iff_eq.mpr module, before, after, named, ?_⟩
  intro b hb
  rw [Bool.not_eq_true', beq_eq_false_iff_ne]
  exact first b hb

/-- A declaration is no wrapper. -/
theorem wrapped?_of_declaration (declaration : (Kind.ofDeclaration? d.type).isSome = true) :
    d.wrapped? = none ∧ (d.type == "ambient_declaration") = false := by
  have other : ∀ type, Kind.ofDeclaration? type = none -> (d.type == type) = false := by
    intro type none
    refine beq_eq_false_iff_ne.mpr fun same => ?_
    rw [same, none] at declaration
    cases declaration
  rw [Cursor.wrapped?, other "export_statement" rfl, other "ambient_declaration" rfl,
    other "expression_statement" rfl]
  exact ⟨rfl, rfl⟩

end

section

variable {c d : Cursor} {stack : List Wrapper}

/-- A stack of wrappers is taken off down to the declaration in it. -/
theorem Syntax.Cursor.Wraps.unwrapStatement_eq (wraps : d.Wraps stack c)
    (declaration : (Kind.ofDeclaration? d.type).isSome = true) :
    c.unwrapStatement.1 = d ∧ c.unwrapStatement.2.declared = stack.contains .ambient := by
  have bottom : d.unwrapStatement.1 = d ∧ d.unwrapStatement.2.declared = false := by
    obtain ⟨bare, type⟩ := wrapped?_of_declaration declaration
    rw [unwrapStatement_of_bare bare, declared_addModifier, type]
    exact ⟨rfl, rfl⟩
  induction wraps with
  | bare => exact bottom
  | exported type declaration inside ih =>
      rw [unwrapStatement_of_wrapped? (wrapped?_of_exported type declaration),
        declared_addModifier, ih.1, ih.2, type]
      exact ⟨rfl, rfl⟩
  | ambient type named first declarable inside ih =>
      rw [unwrapStatement_of_wrapped? (wrapped?_of_ambient type named first declarable),
        declared_addModifier, ih.1, type]
      exact ⟨rfl, rfl⟩
  | expression type named first module =>
      rw [unwrapStatement_of_wrapped? (wrapped?_of_expression type named first module),
        declared_addModifier, bottom.1, bottom.2, type]
      exact ⟨rfl, rfl⟩

/-- A declaration is read alike in all wrappers, with the same events and the same
errors, except that a variable counts as declared exactly if a wrapper is an ambient
declaration. -/
theorem readStatement_in_wrappers (path : String) (wraps : d.Wraps stack c)
    (declaration : (Kind.ofDeclaration? d.type).isSome = true) :
    readStatement path c =
      Option.map (Decl.declaredAs (stack.contains .ambient)) <$> readStatement path d := by
  obtain ⟨statement, declared⟩ := wraps.unwrapStatement_eq declaration
  obtain ⟨bare, -⟩ := Cursor.Wraps.bare.unwrapStatement_eq declaration
  rw [readStatement_eq, statement, declared, readStatement_eq path d, bare]
  simp [Function.comp_def]

end

def depthTree : Node :=
  spelled "lexical_declaration" none 1 "let depth: number;" [
    spelled "variable_declarator" none 1 "depth: number" [
      spelled "identifier" (some "name") 1 "depth" [],
      spelled "type_annotation" (some "type") 1 ": number" [
        spelled "predefined_type" none 1 "number" []]]]

/-- The depth is exported, behind a note, from what the script world provides. -/
def seaTree : Node :=
  spelled "export_statement" none 1 "" [
    spelled "ambient_declaration" (some "declaration") 1 "" [
      spelled "comment" none 1 "/* in fathoms */" [],
      depthTree]]

theorem depth_in_wrappers :
    Cursor.Wraps ⟨some "ambient_declaration", depthTree⟩ [.exported, .ambient]
      (.root seaTree) ∧
    (readStatement "sea.d.ts" ⟨some "ambient_declaration", depthTree⟩).outcome =
      .ok (some (.var ⟨false, "depth", .named "float"⟩)) ∧
    (readStatement "sea.d.ts" (.root seaTree)).outcome =
      .ok (some (.var ⟨true, "depth", .named "float"⟩)) := by
  have wraps : Cursor.Wraps ⟨some "ambient_declaration", depthTree⟩ [.exported, .ambient]
      (.root seaTree) :=
    .exported rfl rfl (.ambient rfl (List.nil_append _).symm nofun rfl .bare)
  have bare : (readStatement "sea.d.ts" ⟨some "ambient_declaration", depthTree⟩).outcome =
      .ok (some (.var ⟨false, "depth", .named "float"⟩)) :=
    ok_of_toOption (by decide +kernel)
  refine ⟨wraps, bare, ?_⟩
  rw [readStatement_in_wrappers "sea.d.ts" wraps rfl]
  exact Traced.outcome_bind bare _

end Bindgen

import Mathlib.Data.List.Forall2
import Bindgen.Generate
import Bindgen.Proofs.Reading.Statements
import Bindgen.Proofs.Words

/-! # Dotted and nested modules

A module declaration with a dotted name stands for modules nested in one another, one
for each part of the name. Both forms are read to the same value with the same events,
so a program may be respelled from one form to the other in any places without a
change to the file that is read from it.
-/

namespace Bindgen

open Syntax

/-! ## Dotted names -/

namespace Text

theorem fields_append {isSeparator : Char -> Bool} {part rest : List Char} {c : Char}
    (inside : ∀ d ∈ part, isSeparator d = false) (separator : isSeparator c = true) :
    fields isSeparator (part ++ c :: rest) = part :: fields isSeparator rest := by
  induction part with
  | nil => rw [List.nil_append, fields, if_pos separator]
  | cons d part ih =>
      obtain ⟨first, others⟩ := List.forall_mem_cons.mp inside
      rw [List.cons_append, fields, if_neg (by simp [first]), ih others]

/-- Names without dots are the parts of the dotted name that they make up. -/
theorem dotted_join {names : List String} (nonempty : names ≠ [])
    (undotted : ∀ name ∈ names, '.' ∉ name.toList) : dotted (join "." names) = names := by
  have plain : ∀ name ∈ names, ∀ c ∈ name.toList, (c == '.') = false := by
    intro name hname c hc
    refine beq_eq_false_iff_ne.mpr fun dot => ?_
    exact undotted name hname (dot ▸ hc)
  induction names with
  | nil => exact absurd rfl nonempty
  | cons name names ih =>
      obtain ⟨first, others⟩ := List.forall_mem_cons.mp plain
      cases names with
      | nil => rw [join, dotted, Word.fields_of_forall first, List.map_singleton,
          String.ofList_toList]
      | cons next names =>
          have rest := ih nofun (fun n hn => undotted n (List.mem_cons_of_mem _ hn)) others
          rw [dotted] at rest ⊢
          rw [join, String.toList_append, String.toList_append, List.append_assoc]
          have dot : ".".toList = ['.'] := rfl
          rw [dot, List.singleton_append, fields_append first rfl, List.map_cons,
            String.ofList_toList, rest]

theorem mem_of_mem_join {separator : String} {names : List String} {c : Char}
    (h : c ∈ (join separator names).toList) :
    c ∈ separator.toList ∨ ∃ name ∈ names, c ∈ name.toList := by
  induction names with
  | nil => cases h
  | cons name names ih =>
      cases names with
      | nil => exact .inr ⟨name, List.mem_cons_self, h⟩
      | cons next names =>
          rw [join, String.toList_append, String.toList_append, List.mem_append,
            List.mem_append] at h
          rcases h with (h | h) | h
          · exact .inr ⟨name, List.mem_cons_self, h⟩
          · exact .inl h
          · rcases ih h with h | ⟨other, member, h⟩
            · exact .inl h
            · exact .inr ⟨other, List.mem_cons_of_mem _ member, h⟩

end Text

/-- A part of a dotted name, without dots and quotes. -/
structure IsNamePart (name : String) : Prop where
  undotted : '.' ∉ name.toList
  undoubled : '\x22' ∉ name.toList
  unquoted : '\x27' ∉ name.toList

theorem moduleName_of_unquoted {n : Cursor} (double : '\x22' ∉ n.text.toList)
    (single : '\x27' ∉ n.text.toList) : moduleName (some n) = n.text := by
  have keeps : ∀ p : Char -> Bool, (∀ c ∈ n.text.toList, p c = true) ->
      String.ofList (n.text.toList.filter p) = n.text := by
    intro p all
    rw [List.filter_eq_self.mpr all, String.ofList_toList]
  have other : ∀ {c d : Char}, d ∉ n.text.toList -> c ∈ n.text.toList -> (c != d) = true :=
    fun absent member => bne_iff_ne.mpr fun same => absent (same ▸ member)
  simp only [moduleName, unquote]
  split
  · exact keeps _ fun c hc => Bool.and_eq_true_iff.mpr ⟨other double hc, other single hc⟩
  · exact keeps _ fun c hc => other double hc

/-! ## The two forms -/

namespace Syntax.Cursor

/-- A module declaration with its name and its body. -/
structure IsModule (c name body : Cursor) : Prop where
  type : c.type = "module" ∨ c.type = "internal_module"
  name : c.field? "name" = some name
  body : c.field? "body" = some body

/-- A module declaration with a dotted name and the given block as its body. -/
inductive IsDotted (names : List String) (block : Node) (c : Cursor) : Prop
  | dotted {name body : Cursor} (module : c.IsModule name body)
      (nested : name.type = "nested_identifier") (text : name.text = Text.join "." names)
      (holds : body.node = block)

/-- Module declarations in one another, one for each name, with the given block as the
body of the innermost. Each of the others has nothing in its body but the next one, in
any wrappers. -/
inductive Nests (block : Node) : List String -> Cursor -> Prop
  | innermost {c name body : Cursor} {first : String} (module : c.IsModule name body)
      (text : name.text = first) (holds : body.node = block) : Nests block [first] c
  | around {c name body statement inner : Cursor} {stack : List Wrapper} {first : String}
      {names : List String} (module : c.IsModule name body) (text : name.text = first)
      (plain : body.type = "statement_block") (only : body.named = [statement])
      (wraps : inner.Wraps stack statement) (inside : Nests block names inner) :
      Nests block (first :: names) c

end Syntax.Cursor

/-! ## One module -/

section

variable {c name body : Cursor}

theorem Syntax.Cursor.IsModule.type_ne (module : c.IsModule name body) :
    (c.type == "ambient_declaration") = false := by
  rcases module.type with type | type <;> rw [type] <;> rfl

theorem Syntax.Cursor.IsModule.declaration (module : c.IsModule name body) :
    Kind.ofDeclaration? c.type = some .moduleDeclaration := by
  rcases module.type with type | type <;> rw [type] <;> rfl

theorem Syntax.Cursor.IsModule.kind_eq (module : c.IsModule name body) :
    c.kind =
      if c.inHeritageClause then .expressionWithTypeArguments else .moduleDeclaration := by
  have arguments : (c.type != "type_arguments") = true := by
    rcases module.type with type | type <;> rw [type] <;> rfl
  rw [Cursor.kind, Cursor.ownKind, module.declaration, arguments, Bool.true_and]

theorem Syntax.Cursor.IsModule.isSome_declaration (module : c.IsModule name body) :
    (Kind.ofDeclaration? c.type).isSome = true := by
  rw [module.declaration]
  rfl

theorem Syntax.Cursor.IsModule.unwrapStatement_eq (module : c.IsModule name body) :
    c.unwrapStatement.1 = c :=
  (Cursor.Wraps.bare.unwrapStatement_eq module.isSome_declaration).1

theorem Syntax.Cursor.IsModule.moduleStatements_eq (module : c.IsModule name body) :
    moduleStatements c = body.named := by
  rw [moduleStatements, moduleBody?, module.type_ne, if_neg Bool.false_ne_true, module.body]
  rfl

theorem Syntax.Cursor.IsModule.moduleNames_eq (module : c.IsModule name body)
    (part : IsNamePart name.text) : moduleNames c = [name.text] := by
  have text := moduleName_of_unquoted part.undoubled part.unquoted
  have whole : Text.dotted (Text.join "." [name.text]) = [name.text] :=
    Text.dotted_join (List.cons_ne_nil _ _) (List.forall_mem_singleton.mpr part.undotted)
  rw [Text.join] at whole
  rw [moduleNames, module.type_ne, if_neg Bool.false_ne_true, module.name]
  simp only [text, whole, ite_self]

theorem Syntax.Cursor.IsModule.dottedNames_eq (module : c.IsModule name body)
    (nested : name.type = "nested_identifier") {names : List String} (nonempty : names ≠ [])
    (parts : ∀ n ∈ names, IsNamePart n) (text : name.text = Text.join "." names) :
    moduleNames c = names := by
  have free : ∀ d : Char, d ∉ ".".toList -> (∀ n ∈ names, d ∉ n.toList) ->
      d ∉ name.text.toList := by
    intro d dot absent member
    rw [text] at member
    rcases Text.mem_of_mem_join member with member | ⟨n, hn, member⟩
    · exact dot member
    · exact absent n hn member
  have whole := moduleName_of_unquoted
    (free '\x22' (by decide) fun n hn => (parts n hn).undoubled)
    (free '\x27' (by decide) fun n hn => (parts n hn).unquoted)
  rw [moduleNames, module.type_ne, if_neg Bool.false_ne_true, module.name]
  simp only [Option.map_some, Option.getD_some, nested, beq_self_eq_true, if_true, whole, text]
  exact Text.dotted_join nonempty fun n hn => (parts n hn).undotted

/-- A module declaration in wrappers is read as the module. -/
theorem readStatement_of_module {statement : Cursor} (path : String)
    (module : c.IsModule name body) (unwrapped : statement.unwrapStatement.1 = c)
    (outside : statement.inHeritageClause = false) :
    readStatement path statement = some <$> readModule path c := by
  have free : c.inHeritageClause = false := by
    rw [← unwrapped]
    rcases statement.unwrapStatement_cases with same | free
    · rw [same, outside]
    · exact free
  have kind : c.kind = .moduleDeclaration := by
    rw [module.kind_eq, free, if_neg Bool.false_ne_true]
  have substance : isTrivia c = false := by
    rw [isTrivia, kind]
    rcases module.type with type | type <;> rw [type] <;> rfl
  rw [readStatement_eq, unwrapped, readBareStatement, substance, kind,
    if_neg Bool.false_ne_true, if_pos (beq_self_eq_true _)]
  calc Option.map (Decl.declaredAs statement.unwrapStatement.2.declared) <$>
        some <$> readModule path c
      = some <$> Decl.declaredAs statement.unwrapStatement.2.declared <$> readModule path c := by
        simp
    _ = some <$> readModule path c := by rw [declaredAs_readModule]

end

/-! ## Nested modules -/

section

variable {c : Cursor} {names : List String} {block : Node}

theorem Syntax.Cursor.Nests.isModule (nests : c.Nests block names) :
    ∃ name body, c.IsModule name body := by
  cases nests with
  | innermost module text holds => exact ⟨_, _, module⟩
  | around module text plain only wraps inside => exact ⟨_, _, module⟩

theorem Syntax.Cursor.IsDotted.isModule (dotted : c.IsDotted names block) :
    ∃ name body, c.IsModule name body ∧ body.node = block := by
  obtain ⟨module, -, -, holds⟩ := dotted
  exact ⟨_, _, module, holds⟩

theorem nestModules_cons (entries : List Decl) (name : String) {names : List String}
    (nonempty : names ≠ []) :
    nestModules entries (name :: names) = .module ⟨name, [nestModules entries names]⟩ := by
  cases names with
  | nil => exact absurd rfl nonempty
  | cons next names => rfl

theorem Syntax.Cursor.Nests.ne_nil (nests : c.Nests block names) : names ≠ [] := by
  cases nests <;> exact List.cons_ne_nil _ _

theorem readModule_of_dotted (path : String) (nonempty : names ≠ [])
    (parts : ∀ n ∈ names, IsNamePart n) (dotted : c.IsDotted names block) :
    readModule path c =
      (fun entries => nestModules (entries.filterMap id) names) <$>
        Traced.traverse (readStatement path) (Cursor.root block).named := by
  obtain ⟨module, nested, text, rfl⟩ := dotted
  rw [readModule_eq, module.dottedNames_eq nested nonempty parts text, module.moduleStatements_eq]
  rfl

/-- Nested modules are read from the inside out. -/
theorem readModule_of_nests (path : String) (parts : ∀ n ∈ names, IsNamePart n)
    (nests : c.Nests block names) :
    readModule path c =
      (fun entries => nestModules (entries.filterMap id) names) <$>
        Traced.traverse (readStatement path) (Cursor.root block).named := by
  induction nests with
  | innermost module text holds =>
      cases text
      cases holds
      rw [readModule_eq, module.moduleNames_eq (parts _ List.mem_cons_self),
        module.moduleStatements_eq]
      rfl
  | @around c name body statement inner stack _ names module text plain only wraps inside ih =>
      cases text
      obtain ⟨first, others⟩ := List.forall_mem_cons.mp parts
      obtain ⟨innerName, innerBody, innerModule⟩ := inside.isModule
      have outside : statement.inHeritageClause = false := by
        have member : statement ∈ body.named := by simp [only]
        obtain ⟨node, -, rfl⟩ := List.mem_map.mp (List.mem_filter.mp member).1
        have parent : body.node.type = "statement_block" := plain
        rw [Cursor.inHeritageClause, parent]
        rfl
      have unwrapped := (wraps.unwrapStatement_eq innerModule.isSome_declaration).1
      rw [readModule_eq, module.moduleNames_eq first, module.moduleStatements_eq, only,
        Traced.traverse, Traced.traverse,
        readStatement_of_module path innerModule unwrapped outside, ih others]
      simp [nestModules_cons _ _ inside.ne_nil, Traced.map_eq_bind, Traced.done_bind, nestModules]

end

/-! ## Respelled trees -/

/-- The types of nodes that can hold statements. -/
def statementHolders : List String :=
  ["program", "statement_block", "export_statement", "ambient_declaration",
    "expression_statement", "module", "internal_module"]

/-- The second tree is the first one with some dotted modules nested. Everything in it
may have moved, and the texts of the nodes around such a module are other ones. -/
inductive Syntax.Node.Respelled : Node -> Node -> Prop
  | moved {n m : Node} (same : n.unplaced = m.unplaced) : Respelled n m
  | inside {n m : Node} (holds : n.type ∈ statementHolders) (noName : n.field ≠ some "name")
      (type : m.type = n.type) (named : m.named = n.named) (field : m.field = n.field)
      (children : List.Forall₂ Respelled n.children m.children) : Respelled n m
  | opened {n m block nestedBlock : Node} {names : List String}
      (statement : n.field = none ∨ n.field = some "declaration")
      (type : m.type = n.type) (named : m.named = n.named) (field : m.field = n.field)
      (nonempty : names ≠ []) (parts : ∀ name ∈ names, IsNamePart name)
      (dotted : (Cursor.root n).IsDotted names block)
      (nests : (Cursor.root m).Nests nestedBlock names)
      (blocks : Respelled block nestedBlock) : Respelled n m

namespace Syntax

section

variable {n m : Node}

/-- What nodes have in common that differ in positions only. -/
theorem Node.of_unplaced_eq (same : n.unplaced = m.unplaced) :
    m.type = n.type ∧ m.named = n.named ∧ m.field = n.field ∧ m.text = n.text ∧
      n.children.map Node.unplaced = m.children.map Node.unplaced := by
  obtain ⟨type, named, field, extent, children⟩ := n
  obtain ⟨type', named', field', extent', children'⟩ := m
  obtain ⟨type, named, field, extent, children⟩ := (Node.mk.injEq ..).mp same
  rw [Node.unplacedAll_eq_map, Node.unplacedAll_eq_map] at children
  exact ⟨type.symm, named.symm, field.symm, (congrArg Extent.text extent).symm, children⟩

theorem Node.Respelled.head (h : n.Respelled m) :
    m.type = n.type ∧ m.named = n.named ∧ m.field = n.field := by
  cases h with
  | moved same =>
      obtain ⟨type, named, field, -⟩ := Node.of_unplaced_eq same
      exact ⟨type, named, field⟩
  | inside holds noName type named field children => exact ⟨type, named, field⟩
  | opened statement type named field nonempty parts dotted nests blocks =>
      exact ⟨type, named, field⟩

/-- The children of a node that is not itself a statement that was opened. -/
theorem Node.Respelled.children (h : n.Respelled m)
    (closed : n.field = some "body" ∨ n.type ≠ "module" ∧ n.type ≠ "internal_module") :
    List.Forall₂ Respelled n.children m.children := by
  cases h with
  | moved same =>
      obtain ⟨-, -, -, -, all⟩ := Node.of_unplaced_eq same
      rw [← List.forall₂_eq_eq_eq, List.forall₂_map_left_iff, List.forall₂_map_right_iff] at all
      exact all.imp fun _ _ same => .moved same
  | inside holds noName type named field children => exact children
  | opened statement type named field nonempty parts dotted nests blocks =>
      obtain ⟨module, -⟩ := dotted
      rcases closed with body | ⟨other, inner⟩
      · rw [body] at statement
        rcases statement with none | declaration
        · cases none
        · exact absurd declaration (by decide)
      · rcases module.type with type | type
        · exact absurd type other
        · exact absurd type inner

/-- The name of a module is no statement, so it may only have moved. -/
theorem Node.Respelled.text_eq (h : n.Respelled m) (name : n.field = some "name") :
    m.text = n.text := by
  cases h with
  | moved same => exact (Node.of_unplaced_eq same).2.2.2.1
  | inside holds noName type named field children => exact absurd name noName
  | opened statement type named field nonempty parts dotted nests blocks =>
      rw [name] at statement
      exact absurd statement (by decide)

end

/-- Places of two trees in respelled nodes, below nodes of one type. -/
structure Cursor.Respelled (c d : Cursor) : Prop where
  parent : d.parent = c.parent
  node : c.node.Respelled d.node

end Syntax

theorem forall₂_find? {α β : Type} {R : α -> β -> Prop} {p : α -> Bool} {q : β -> Bool}
    (same : ∀ a b, R a b -> p a = q b) {as : List α} {bs : List β} (h : List.Forall₂ R as bs) :
    Option.Rel R (as.find? p) (bs.find? q) := by
  induction h with
  | nil => exact .none
  | cons first rest ih =>
      rw [List.find?_cons, List.find?_cons, ← same _ _ first]
      split
      · exact .some first
      · exact ih

theorem rel_cases {α β : Type} {R : α -> β -> Prop} {a? : Option α} {b? : Option β}
    (h : Option.Rel R a? b?) :
    a? = none ∧ b? = none ∨ ∃ a b, a? = some a ∧ b? = some b ∧ R a b := by
  cases h with
  | none => exact .inl ⟨rfl, rfl⟩
  | some h => exact .inr ⟨_, _, rfl, rfl, h⟩

section

variable {c d : Cursor}

theorem Syntax.Cursor.field_of_field? {name : String} (h : c.field? name = some d) :
    d.node.field = some name := by
  have found : (d.node.field == some name) = true :=
    List.find?_some (p := fun child : Cursor => child.node.field == some name) h
  exact beq_iff_eq.mp found

theorem Syntax.Cursor.Respelled.type_eq (h : c.Respelled d) : d.type = c.type :=
  h.node.head.1

theorem Syntax.Cursor.Respelled.inHeritageClause_eq (h : c.Respelled d) :
    d.inHeritageClause = c.inHeritageClause := by
  rw [Cursor.inHeritageClause, Cursor.inHeritageClause, h.parent]

theorem Syntax.Cursor.Respelled.children_of (h : c.Respelled d)
    (children : List.Forall₂ Node.Respelled c.node.children d.node.children) :
    List.Forall₂ Cursor.Respelled c.children d.children := by
  rw [Cursor.children, Cursor.children, List.forall₂_map_left_iff, List.forall₂_map_right_iff]
  exact children.imp fun _ _ node => ⟨congrArg some h.type_eq, node⟩

variable (children : List.Forall₂ Cursor.Respelled c.children d.children)

include children

theorem forall₂_named : List.Forall₂ Cursor.Respelled c.named d.named := by
  refine List.rel_filter ?_ children
  intro a b h
  obtain ⟨type, named, -⟩ := h.node.head
  simp only [Cursor.type, type, named]

theorem rel_field? (name : String) :
    Option.Rel Cursor.Respelled (c.field? name) (d.field? name) := by
  refine forall₂_find? ?_ children
  intro a b h
  rw [h.node.head.2.2]

theorem rel_find?_type (p : String -> Bool) :
    Option.Rel Cursor.Respelled (c.children.find? fun child => p child.type)
      (d.children.find? fun child => p child.type) := by
  refine forall₂_find? ?_ children
  intro a b h
  rw [h.type_eq]

theorem hasToken_respelled (token : String) : d.hasToken token = c.hasToken token := by
  unfold Cursor.hasToken
  revert children
  generalize c.children = before, d.children = after
  intro children
  induction children with
  | nil => rfl
  | cons first rest ih => rw [List.any_cons, List.any_cons, ih, first.type_eq]

theorem rel_wrapped? (type : d.type = c.type) :
    Option.Rel Cursor.Respelled c.wrapped? d.wrapped? := by
  have named := forall₂_named children
  unfold Cursor.wrapped?
  rw [type]
  split
  · exact rel_field? children "declaration"
  · split
    · exact forall₂_find? (fun a b h => by rw [h.type_eq]) named
    · split
      · exact forall₂_find? (fun a b h => by rw [h.type_eq]) named
      · exact .none

end

/-! ## Kinds of nodes that hold statements -/

def isReadAlone (kind : Kind) : Bool :=
  [.interfaceDeclaration, .classDeclaration, .enumDeclaration, .typeAliasDeclaration,
    .variableStatement, .functionDeclaration].contains kind

theorem value?_readPlainStatement_of_other {path : String} {c : Cursor} {modifiers : Modifiers}
    (other : isReadAlone c.kind = false) :
    (readPlainStatement path c modifiers).value? =
      some (if c.kind = .exportAssignment then .absent else .todo) := by
  unfold readPlainStatement
  split <;> simp_all [isReadAlone, noteUnsupported, Traced.value?_bind, Traced.value?_note]

section

variable {c d : Cursor}

theorem ownKind_of_holds (holds : c.type ∈ statementHolders) :
    c.ownKind =
      if c.type == "module" || c.type == "internal_module" then .moduleDeclaration
      else if c.type == "export_statement" then c.exportKind
      else if c.type == "ambient_declaration" && c.hasToken "global" then .moduleDeclaration
      else .unknown := by
  -- All that the kind asks of these types, as one closed fact.
  have table : statementHolders.all (fun type =>
      Kind.ofDeclaration? type == (if type == "module" || type == "internal_module" then
        some .moduleDeclaration else none) &&
      !isMethodType type && Kind.ofType? type == none && type != "predefined_type" &&
      type != "object_type" && type != "null" && type != "undefined") = true := by
    decide +kernel
  have row := List.all_eq_true.mp table c.type holds
  simp only [Bool.and_eq_true, beq_iff_eq, Bool.not_eq_true', bne_iff_ne] at row
  obtain ⟨⟨⟨⟨⟨⟨declaration, method⟩, ofType⟩, predefined⟩, object⟩, null⟩, undefined⟩ := row
  unfold Cursor.ownKind
  cases module : (c.type == "module" || c.type == "internal_module") with
  | true =>
      rw [module, if_pos rfl] at declaration
      rw [declaration]
      rfl
  | false =>
      rw [module, if_neg Bool.false_ne_true] at declaration
      simp [declaration, method, ofType, predefined, object, null, undefined]

theorem isReadAlone_kind (holds : c.type ∈ statementHolders) :
    isReadAlone c.kind = false := by
  rw [Cursor.kind, ownKind_of_holds holds, Cursor.exportKind]
  repeat' split
  all_goals rfl

theorem kind_respelled (h : c.Respelled d) (holds : c.type ∈ statementHolders)
    (tokens : ∀ token, d.hasToken token = c.hasToken token) : d.kind = c.kind := by
  have holdsToo : d.type ∈ statementHolders := by rwa [h.type_eq]
  rw [Cursor.kind, Cursor.kind, ownKind_of_holds holds, ownKind_of_holds holdsToo,
    Cursor.exportKind, Cursor.exportKind, h.type_eq, h.inHeritageClause_eq]
  simp only [tokens]

end

/-! ## Reading a respelled tree -/

theorem Traced.value?_traverse_forall₂ {ω ε α β γ : Type} {f : α -> Traced ω ε γ}
    {g : β -> Traced ω ε γ} {as : List α} {bs : List β}
    (same : List.Forall₂ (fun a b => (f a).value? = (g b).value?) as bs) :
    (traverse f as).value? = (traverse g bs).value? := by
  induction same with
  | nil => rfl
  | cons first rest ih =>
      simp only [traverse, value?_bind, first, ih]

section

variable {c d : Cursor}

theorem moduleNames_respelled (h : c.Respelled d)
    (children : List.Forall₂ Cursor.Respelled c.children d.children) :
    moduleNames d = moduleNames c := by
  unfold moduleNames
  rw [h.type_eq]
  rcases rel_cases (rel_field? children "name") with ⟨before, after⟩ | ⟨a, b, before, after, same⟩
  · rw [before, after]
  · have text : b.text = a.text := same.node.text_eq (Cursor.field_of_field? before)
    rw [before, after]
    simp only [moduleName, Option.map_some, same.type_eq, text]

theorem Syntax.Cursor.Respelled.named (h : c.Respelled d)
    (closed : c.node.field = some "body" ∨ c.type ≠ "module" ∧ c.type ≠ "internal_module") :
    List.Forall₂ Cursor.Respelled c.named d.named :=
  forall₂_named (h.children_of (h.node.children closed))

theorem forall₂_moduleStatements (h : c.Respelled d)
    (children : List.Forall₂ Cursor.Respelled c.children d.children) :
    List.Forall₂ Cursor.Respelled (moduleStatements c) (moduleStatements d) := by
  have bodies : Option.Rel Cursor.Respelled (moduleBody? c) (moduleBody? d) := by
    unfold moduleBody?
    rw [h.type_eq]
    split
    · exact rel_find?_type children (· == "statement_block")
    · exact rel_field? children "body"
  unfold moduleStatements
  rcases rel_cases bodies with ⟨before, after⟩ | ⟨a, b, before, after, same⟩
  · rw [before, after]
    exact .nil
  · rw [before, after]
    refine same.named ?_
    unfold moduleBody? at before
    split at before
    · have block : (a.type == "statement_block") = true :=
        List.find?_some (p := fun child : Cursor => child.type == "statement_block") before
      rw [beq_iff_eq.mp block]
      exact .inr (by decide)
    · exact .inl (Cursor.field_of_field? before)

/-- Statements in no wrapper, of one kind that has no reader of its own. -/
theorem value?_readStatement_of_bare {path other : String} (bare : c.wrapped? = none)
    (bareToo : d.wrapped? = none) (type : d.type = c.type) (kind : d.kind = c.kind)
    (alone : isReadAlone c.kind = false)
    (modules : (readModule path c).value? = (readModule other d).value?) :
    (readStatement path c).value? = (readStatement other d).value? := by
  have plain : (readPlainStatement path c .none).value? =
      (readPlainStatement other d .none).value? := by
    rw [value?_readPlainStatement_of_other alone,
      value?_readPlainStatement_of_other (by rwa [kind]), kind]
  rw [readStatement_of_bare bare, readStatement_of_bare bareToo, type, Traced.value?_map,
    Traced.value?_map]
  congr 1
  unfold readBareStatement isTrivia
  rw [kind, type]
  split
  · rfl
  · split
    · rw [Traced.value?_map, Traced.value?_map, modules]
    · rw [Traced.value?_map, Traced.value?_map, plain]

theorem readModule_root (path : String) (c : Cursor) :
    readModule path c = readModule path (.root c.node) := by
  rw [readModule_eq, readModule_eq]
  rfl

/-- Whether a node is a module does not depend on what is around it. -/
theorem Syntax.Cursor.IsModule.of_root {name body : Cursor}
    (module : (Cursor.root c.node).IsModule name body) : c.IsModule name body :=
  ⟨module.type, module.name, module.body⟩

/-- A statement of a respelled program is read as the one before it. -/
theorem value?_readStatement_respelled (path other : String) {c d : Cursor} (h : c.Respelled d) :
    (readStatement path c).value? = (readStatement other d).value? := by
  -- Statements below are respelled as well, and are read alike by induction on the size.
  have below : ∀ {before after : List Cursor}, (∀ s ∈ before, s.size < c.size) ->
      List.Forall₂ Cursor.Respelled before after ->
      (Traced.traverse (readStatement path) before).value? =
        (Traced.traverse (readStatement other) after).value? := by
    intro before after smaller each
    refine Traced.value?_traverse_forall₂ ?_
    refine ((List.forall₂_and_left _ _).mpr ⟨smaller, each⟩).imp ?_
    rintro s t ⟨_, same⟩
    exact value?_readStatement_respelled path other same
  cases h.node with
  | moved same =>
      have unplaced : c.unplaced = d.unplaced := by
        rw [Cursor.unplaced, Cursor.unplaced, h.parent, same]
      rw [← value?_readStatement_unplaced path path c, unplaced,
        value?_readStatement_unplaced path other d]
  | inside holds noName type named field children =>
      have children := h.children_of children
      rcases rel_cases (rel_wrapped? children h.type_eq) with
        ⟨bare, bareToo⟩ | ⟨a, b, wrapped, wrappedToo, same⟩
      · refine value?_readStatement_of_bare bare bareToo h.type_eq
          (kind_respelled h holds (hasToken_respelled children)) (isReadAlone_kind holds) ?_
        rw [readModule_eq, readModule_eq, Traced.value?_map, Traced.value?_map,
          moduleNames_respelled h children,
          below (fun s => size_lt_of_mem_moduleStatements) (forall₂_moduleStatements h children)]
      · have := Cursor.size_lt_of_wrapped? wrapped
        rw [readStatement_of_wrapped? wrapped, readStatement_of_wrapped? wrappedToo,
          Traced.value?_map, Traced.value?_map, h.type_eq,
          value?_readStatement_respelled path other same]
  | @opened _ _ block nestedBlock names statement type named field nonempty parts dotted nests
      blocks =>
      obtain ⟨name, body, root, rfl⟩ := dotted.isModule
      obtain ⟨nestedName, nestedBody, nestedRoot⟩ := nests.isModule
      have module : c.IsModule name body := root.of_root
      have nestedModule : d.IsModule nestedName nestedBody := nestedRoot.of_root
      have smaller : ∀ s ∈ (Cursor.root body.node).named, s.size < c.size := by
        intro s hs
        have inner : s.size < body.size := Cursor.size_lt_of_mem_named hs
        have outer : body.size < c.size := Cursor.size_lt_of_field? module.body
        omega
      have ofBody : body.node.field = some "body" := Cursor.field_of_field? module.body
      have each : List.Forall₂ Cursor.Respelled (Cursor.root body.node).named
          (Cursor.root nestedBlock).named :=
        Cursor.Respelled.named ⟨rfl, blocks⟩ (.inl ofBody)
      refine value?_readStatement_of_bare (wrapped?_of_declaration module.isSome_declaration).1
        (wrapped?_of_declaration nestedModule.isSome_declaration).1 h.type_eq ?_ ?_ ?_
      · rw [nestedModule.kind_eq, module.kind_eq, h.inHeritageClause_eq]
      · rw [module.kind_eq]
        split <;> rfl
      · rw [readModule_root path c, readModule_root other d,
          readModule_of_dotted path nonempty parts dotted, readModule_of_nests other parts nests,
          Traced.value?_map, Traced.value?_map, below smaller each]
termination_by c.size

end

theorem File.value?_read_respelled (settings : Settings) (path other rootName : String)
    {tree respelled : Node} (program : tree.type = "program") (h : tree.Respelled respelled) :
    (File.read settings path rootName tree).value? =
      (File.read settings other rootName respelled).value? := by
  have root : (Cursor.root tree).Respelled (.root respelled) := ⟨rfl, h⟩
  have closed : (Cursor.root tree).type ≠ "module" ∧
      (Cursor.root tree).type ≠ "internal_module" := by
    rw [Cursor.type, Cursor.root, program]
    decide
  have statements : (Traced.traverse (readStatement path) (Cursor.root tree).named).value? =
      (Traced.traverse (readStatement other) (Cursor.root respelled).named).value? :=
    Traced.value?_traverse_forall₂ ((root.named (.inr closed)).imp fun _ _ same =>
      value?_readStatement_respelled path other same)
  simp only [File.read, readDeclarations, readStatements, Traced.value?_bind, statements]

/-- A module declaration with a dotted name is read as the modules nested in one another,
one for each part of the name, with the same block innermost. So a program of which some
dotted modules are spelled as nested ones is read to the same file. -/
theorem dotted_modules_read_as_nested :
    (∀ path names block c d, names ≠ [] -> (∀ name ∈ names, IsNamePart name) ->
      c.IsDotted names block -> d.Nests block names ->
      readModule path c = readModule path d ∧
        (c.inHeritageClause = false -> d.inHeritageClause = false ->
          readStatement path c = readStatement path d)) ∧
    ∀ settings path other rootName (tree respelled : Node), tree.type = "program" ->
      tree.Respelled respelled ->
      (File.read settings path rootName tree).value? =
        (File.read settings other rootName respelled).value? := by
  refine ⟨?_, fun settings path other rootName tree respelled program h =>
    File.value?_read_respelled settings path other rootName program h⟩
  intro path names block c d nonempty parts dotted nests
  have modules : readModule path c = readModule path d := by
    rw [readModule_of_dotted path nonempty parts dotted, readModule_of_nests path parts nests]
  refine ⟨modules, fun outside outsideToo => ?_⟩
  obtain ⟨name, body, module, -⟩ := dotted.isModule
  obtain ⟨nestedName, nestedBody, nestedModule⟩ := nests.isModule
  rw [readStatement_of_module path module module.unwrapStatement_eq outside,
    readStatement_of_module path nestedModule nestedModule.unwrapStatement_eq outsideToo, modules]

def shapeStatement (line : Nat) (name : String) : Node :=
  spelled "interface_declaration" none line "" [
    spelled "type_identifier" (some "name") line name []]

def shapeBlock (line : Nat) (statement : Node) : Node :=
  spelled "statement_block" (some "body") line "" [statement]

/-- A module declaration as a statement, or as what an export statement is about. -/
def shapeModule (field : Option String) (line : Nat) (nameType name : String) (block : Node) :
    Node :=
  spelled "internal_module" field line "" [spelled nameType (some "name") line name [], block]

/-- The planar shapes, and behind them the earth in a block for the outer module. -/
def shapesTree (planar : Node) (line : Nat) : Node :=
  spelled "program" none 1 "" [
    spelled "ambient_declaration" none 1 "" [planar],
    spelled "ambient_declaration" none line "" [
      shapeModule none line "identifier" "Geo" (shapeBlock line (shapeStatement line "Earth"))]]

def dottedShapes : Node :=
  shapeModule none 1 "nested_identifier" "Geo.Flat" (shapeBlock 1 (shapeStatement 2 "Point"))

def nestedShapes : Node :=
  shapeModule none 1 "identifier" "Geo" (shapeBlock 1
    (spelled "export_statement" none 2 "" [
      shapeModule (some "declaration") 2 "identifier" "Flat"
        (shapeBlock 2 (shapeStatement 3 "Point"))]))

theorem shapes_read_as_nested :
    (shapesTree dottedShapes 4).Respelled (shapesTree nestedShapes 6) ∧
    (File.read {} "geo.d.ts" "Shapes" (shapesTree dottedShapes 4)).value?.map Decl.file =
      (File.read {} "geo.d.ts" "Shapes" (shapesTree nestedShapes 6)).value?.map Decl.file ∧
    (File.read {} "geo.d.ts" "Shapes" (shapesTree nestedShapes 6)).value?.map Decl.file =
      some (.file ⟨"Shapes", Settings.opens {}, [⟨"", [.module ⟨"Geo", [
        .module ⟨"Flat", [.interface ⟨false, "Point", [], [], []⟩]⟩,
        .interface ⟨false, "Earth", [], [], []⟩]⟩]⟩]⟩) := by
  have parts : ∀ name ∈ ["Geo", "Flat"], IsNamePart name := by
    refine List.forall_mem_cons.mpr ⟨?_, List.forall_mem_singleton.mpr ?_⟩
    · exact ⟨by decide, by decide, by decide⟩
    · exact ⟨by decide, by decide, by decide⟩
  have dotted : (Cursor.root dottedShapes).IsDotted ["Geo", "Flat"]
      (shapeBlock 1 (shapeStatement 2 "Point")) :=
    .dotted ⟨.inr rfl, rfl, rfl⟩ rfl rfl rfl
  have nests : (Cursor.root nestedShapes).Nests (shapeBlock 2 (shapeStatement 3 "Point"))
      ["Geo", "Flat"] :=
    .around ⟨.inr rfl, rfl, rfl⟩ rfl rfl rfl (.exported rfl rfl .bare)
      (.innermost ⟨.inr rfl, rfl, rfl⟩ rfl rfl)
  have opened : dottedShapes.Respelled nestedShapes :=
    .opened (.inl rfl) rfl rfl rfl (List.cons_ne_nil _ _) parts dotted nests (.moved rfl)
  have respelled : (shapesTree dottedShapes 4).Respelled (shapesTree nestedShapes 6) :=
    .inside (by decide) nofun rfl rfl rfl
      (.cons (.inside (by decide) nofun rfl rfl rfl (.cons opened .nil))
        (.cons (.moved rfl) .nil))
  refine ⟨respelled, ?_, ?_⟩
  · rw [dotted_modules_read_as_nested.2 {} "geo.d.ts" "geo.d.ts" "Shapes" _ _ rfl respelled]
  · decide +kernel

end Bindgen

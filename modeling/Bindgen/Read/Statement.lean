import Bindgen.Read.Member
import Bindgen.Text.Fields

/-! # Reading statements

From the statements of a declaration file to its declarations, one for each
statement that is not trivia, in order.
-/

namespace Bindgen

open Syntax

/-- The body of a declaration: a field, or the first child of a fitting type. -/
def body? (c : Cursor) (isBody : String -> Bool) : Option Cursor :=
  (c.field? "body").or (c.children.find? fun child => isBody child.type)

def readInterface (path : String) (c : Cursor) : Reading Interface := do
  let inherits ← readInterfaceHeritage path c
  let members ← readMembers path
    (body? c fun type => type == "interface_body" || type == "object_type")
  .done ⟨false, c.fieldText "name", readTypeParams c, inherits, members⟩

/-- The name of a class; one without a name gets a stand-in. -/
def className (c : Cursor) : String :=
  if (c.fieldText "name").isEmpty then "TODO_NoClassName" else c.fieldText "name"

def readClass (path : String) (c : Cursor) : Reading Interface := do
  let inherits ← readClassHeritage path c
  let members ← readMembers path (body? c fun type => type == "class_body")
  .done ⟨false, className c, readTypeParams c, inherits, members⟩

def withoutEnds (s : String) : String :=
  String.ofList (s.toList.drop 1).dropLast

/-- A case of an enum. Only a number or a string is a value that is known. -/
def readEnumCase (c : Cursor) : EnumCase :=
  if c.type != "enum_assignment" then ⟨unquote c.text, .unknown, none⟩
  else
    match c.field? "value" with
    | none => ⟨memberName c, .unknown, none⟩
    | some value =>
      if value.type == "number" then ⟨memberName c, .numeric, some value.text⟩
      else if value.type == "string" then ⟨memberName c, .text, some (withoutEnds value.text)⟩
      else ⟨memberName c, .unknown, none⟩

def readEnum (c : Cursor) : Enum where
  name := c.fieldText "name"
  cases := (c.fieldNamed "body").map readEnumCase

def literals? : List Decl -> Option (List String)
  | [] => some []
  | d :: ds =>
    match d.literal?, literals? ds with
    | some text, some texts => some (text :: texts)
    | _, _ => none

def literalUnion? : Decl -> Option (List String)
  | .union _ (d :: ds) => literals? (d :: ds)
  | _ => none

/-- The type of an alias: a field, or else the last named child. -/
def aliasValue? (c : Cursor) : Option Cursor :=
  (c.field? "value").or c.named.getLast?

/-- A type alias. One for a union of string literals is an enum. -/
def readAlias (path : String) (c : Cursor) : Reading Decl :=
  match aliasValue? c with
  | none => .fail .emptyAlias
  | some value => do
    let type ← readType path value
    match literalUnion? type with
    | some texts => .done (.enum ⟨c.fieldText "name", texts.map fun text => ⟨text, .text, none⟩⟩)
    | none => .done (.typeAlias ⟨c.fieldText "name", type, readTypeParams c⟩)

/-- A variable statement, of which the first binding counts. -/
def readVariable (path : String) (c : Cursor) (modifiers : Modifiers) : Reading Decl :=
  match c.named.filter fun child => child.type == "variable_declarator" with
  | [] => do
    noteUnsupported path "variable" c
    .done .todo
  | binding :: others => do
    if !others.isEmpty then .note (.extraBindings (.ofCursor path c))
    let type ← readField path binding "type" .obj
    .done (.var ⟨modifiers.declared, binding.fieldText "name", type⟩)

def functionName? (c : Cursor) : Option String :=
  if (c.fieldText "name").isEmpty then none else some (c.fieldText "name")

def readFunction (path : String) (c : Cursor) : Reading Signature := do
  let params ← readParams path c
  let result ← readResult path c
  .done ⟨none, false, functionName? c, readTypeParams c, params, result⟩

/-- The name of a module: a quoted one loses all quotes, any other the double
ones. -/
def moduleName (name : Option Cursor) : String :=
  match name with
  | none => ""
  | some n =>
    if n.type == "string" then unquote n.text
    else String.ofList (n.text.toList.filter (· != '\x22'))

/-- The names of the modules that a module declaration opens, from the outside
in. A dotted name opens one for each of its parts. -/
def moduleNames (c : Cursor) : List String :=
  if c.type == "ambient_declaration" then ["global"]
  else
    let name := c.field? "name"
    if ((name.map fun n => n.type == "nested_identifier").getD false) then
      Text.dotted (moduleName name)
    else [moduleName name]

def moduleBody? (c : Cursor) : Option Cursor :=
  if c.type == "ambient_declaration" then
    c.children.find? fun child => child.type == "statement_block"
  else c.field? "body"

def moduleStatements (c : Cursor) : List Cursor :=
  ((moduleBody? c).map Cursor.named).getD []

/-- Modules in one another, with `entries` in the innermost. -/
def nestModules (entries : List Decl) : List String -> Decl
  | [] => .module ⟨"", entries⟩
  | [name] => .module ⟨name, entries⟩
  | name :: names => .module ⟨name, [nestModules entries names]⟩

def readPlainStatement (path : String) (c : Cursor) (modifiers : Modifiers) : Reading Decl :=
  match c.kind with
  | .interfaceDeclaration => do .done (.interface (← readInterface path c))
  | .classDeclaration => do .done (.interface (← readClass path c))
  | .enumDeclaration => .done (.enum (readEnum c))
  | .typeAliasDeclaration => readAlias path c
  | .variableStatement => readVariable path c modifiers
  | .functionDeclaration => do .done (.function (← readFunction path c))
  | .exportAssignment => do
    .note (.exportAssignment (.ofCursor path c))
    .done .absent
  | .importDeclaration => do
    .note (.droppedStatement c.kind.name (.ofCursor path c))
    .done .todo
  | .exportDeclaration => do
    .note (.droppedStatement c.kind.name (.ofCursor path c))
    .done .todo
  | .namespaceExportDeclaration => do
    .note (.droppedStatement c.kind.name (.ofCursor path c))
    .done .todo
  | _ => do
    noteUnsupported path "statement" c
    .done .todo

def isTrivia (c : Cursor) : Bool :=
  c.kind == .comment || c.type == "empty_statement"

theorem size_lt_of_mem_moduleStatements {s c : Cursor} (h : s ∈ moduleStatements c) :
    s.size < c.size := by
  unfold moduleStatements at h
  cases hb : moduleBody? c with
  | none => simp [hb] at h
  | some body =>
    simp only [hb, Option.map_some, Option.getD_some] at h
    have hs := Cursor.size_lt_of_mem_named h
    unfold moduleBody? at hb
    split at hb
    · have := Cursor.size_lt_of_mem_children (List.mem_of_find?_eq_some hb)
      omega
    · have := Cursor.size_lt_of_field? hb
      omega

mutual

/-- Read a statement; trivia is nothing. -/
def readStatement (path : String) (c : Cursor) : Reading (Option Decl) := do
  let statement := c.unwrapStatement
  if isTrivia statement.1 then .done none
  else if statement.1.kind == .moduleDeclaration then do
    .done (some (← readModule path statement.1))
  else do
    .done (some (← readPlainStatement path statement.1 statement.2))
termination_by 2 * c.size + 1
decreasing_by
  have := c.size_unwrapStatement_le
  omega

def readModule (path : String) (c : Cursor) : Reading Decl := do
  let entries ← Traced.traverseMem (moduleStatements c) fun s _h => readStatement path s
  .done (nestModules (entries.filterMap id) (moduleNames c))
termination_by 2 * c.size
decreasing_by
  have := size_lt_of_mem_moduleStatements _h
  omega

end

def readStatements (path : String) (block : Cursor) : Reading (List Decl) := do
  let entries ← Traced.traverse (readStatement path) block.named
  .done (entries.filterMap id)

def readDeclarations (path : String) (tree : Node) : Reading (List Decl) :=
  readStatements path (.root tree)

end Bindgen

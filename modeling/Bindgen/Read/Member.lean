import Bindgen.Read.Type

/-! # Reading members and heritage

The members of interfaces and classes, and the types they inherit from.
-/

namespace Bindgen

open Syntax

def indexerTemplate : String := "$0[$1]\x7b\x7b=$2\x7d\x7d"

/-- The template of a call of the object itself. -/
def invokeTemplate : String := "$0($1...)"

def createTemplate : String := "new $0($1...)"

def memberName (c : Cursor) : String :=
  unquote (c.fieldText "name")

/-- An index signature. One without a name is a mapped-type clause, which has
no counterpart. -/
def readIndexSignature (path : String) (c : Cursor) : Reading Decl :=
  match c.field? "name" with
  | none => do
    .note (.mappedClause (.ofCursor path c))
    .done .todo
  | some name => do
    let indexType ← readField path c "index_type" .obj
    let type ← readField path c "type" .absent
    let optional := ((c.field? "type").map fun t => t.type == "opting_type_annotation").getD false
    .done (.property
      ⟨some indexerTemplate, false, some ⟨name.text, false, false, indexType⟩, "Item", optional,
        type⟩)

def readMethod (path : String) (c : Cursor) : Reading Signature := do
  let params ← readParams path c
  let result ← readResult path c
  .done ⟨none, c.hasToken "static", some (memberName c), readTypeParams c, params, result⟩

def readProperty (path : String) (c : Cursor) : Reading Property := do
  let type ← readField path c "type" .absent
  .done ⟨none, c.hasToken "static", none, memberName c, c.hasToken "?", type⟩

/-- The type of an accessor: the result of a getter, the first parameter of a
setter. -/
def readAccessorType (path : String) (c : Cursor) : Reading Decl :=
  if c.hasToken "get" then readField path c "return_type" .absent
  else do
    let params ← readParams path c
    .done ((params.head?.map fun p => p.type).getD .absent)

def readAccessor (path : String) (c : Cursor) : Reading Property := do
  let type ← readAccessorType path c
  .done ⟨none, c.hasToken "static", none, memberName c, c.hasToken "?", type⟩

/-- A call signature, which is a method that invokes the object. It binds no
type parameters. -/
def readCallSignature (path : String) (c : Cursor) : Reading Signature := do
  let params ← readParams path c
  let result ← readResult path c
  .done ⟨some invokeTemplate, false, some "Invoke", [], params, result⟩

/-- A construct signature or a constructor, which is a static method that
creates the object. -/
def readConstructSignature (path : String) (c : Cursor) : Reading Signature := do
  let params ← readParams path c
  .done ⟨some createTemplate, true, some "Create", readTypeParams c, params, .self⟩

def readPlainMember (path : String) (c : Cursor) : Reading Decl :=
  match c.kind with
  | .indexSignature => readIndexSignature path c
  | .methodSignature => do .done (.function (← readMethod path c))
  | .methodDeclaration => do .done (.function (← readMethod path c))
  | .propertySignature => do .done (.property (← readProperty path c))
  | .propertyDeclaration => do .done (.property (← readProperty path c))
  | .callSignature => do .done (.function (← readCallSignature path c))
  | .constructSignature => do .done (.function (← readConstructSignature path c))
  | .constructor => do .done (.function (← readConstructSignature path c))
  | _ => do
    noteUnsupported path "member" c
    .done .todo

def isAccessor (kind : Kind) : Bool :=
  kind == .getAccessor || kind == .setAccessor

def readMembersAfter (path : String) (accessors : List String) :
    List Cursor -> Reading (List Decl)
  | [] => .done []
  | c :: cs =>
    if isAccessor c.kind then do
      let property ← readAccessor path c
      -- The getter and the setter of one name are one property, at the first of them.
      if accessors.contains property.name then readMembersAfter path accessors cs
      else do
        let rest ← readMembersAfter path (property.name :: accessors) cs
        .done (.property property :: rest)
    else do
      let member ← readPlainMember path c
      let rest ← readMembersAfter path accessors cs
      .done (member :: rest)

def memberNodes (body : Option Cursor) : List Cursor :=
  ((body.map Cursor.named).getD []).filter fun c => c.type != "decorator"

def readMembers (path : String) (body : Option Cursor) : Reading (List Decl) :=
  readMembersAfter path [] (memberNodes body)

def heritageName (c : Cursor) : String :=
  if c.type == "generic_type" then c.fieldText "name" else c.text

def heritageArguments (c : Cursor) : List Cursor :=
  if c.type == "generic_type" then c.fieldNamed "type_arguments" else []

def readHeritage (path : String) (c : Cursor) : Reading Decl :=
  if (heritageName c).isEmpty then .fail (.unnamedHeritage (.ofCursor path c))
  else do
    let arguments ← Traced.traverse (readType path) (heritageArguments c)
    .done (.generic (.named (heritageName c)) arguments)

def heritageEntries (clause : Cursor) : List Cursor :=
  clause.named.filter fun c => c.kind == .expressionWithTypeArguments

def readInterfaceHeritage (path : String) (c : Cursor) : Reading (List Decl) :=
  let clauses := c.named.filter fun clause => clause.type == "extends_type_clause"
  Traced.traverse (readHeritage path) (clauses.flatMap heritageEntries)

/-- The types with other arguments for the last of them. -/
def withLastArguments (arguments : List Decl) : List Decl -> List Decl
  | [] => []
  | [.generic base _] => [.generic base arguments]
  | d :: ds => d :: withLastArguments arguments ds

/-- Read an entry of an `extends` clause of a class: another type, or the
arguments of the last one. -/
def addExtended (path : String) (types : List Decl) (c : Cursor) : Reading (List Decl) :=
  if c.kind == .expressionWithTypeArguments then do
    let type ← readHeritage path c
    .done (types ++ [type])
  else if c.type == "type_arguments" && !types.isEmpty then do
    let arguments ← Traced.traverse (readType path) c.named
    .done (withLastArguments arguments types)
  else .done types

def addClause (path : String) (types : List Decl) (clause : Cursor) : Reading (List Decl) :=
  if clause.type == "implements_clause" then do
    let more ← Traced.traverse (readHeritage path) clause.named
    .done (types ++ more)
  else if clause.type == "extends_clause" then
    Traced.fold (addExtended path) types clause.named
  else .done types

def readClassHeritage (path : String) (c : Cursor) : Reading (List Decl) :=
  match c.named.find? fun child => child.type == "class_heritage" with
  | none => .done []
  | some heritage => Traced.fold (addClause path) [] heritage.named

end Bindgen

import Bindgen.Decl.Equality
import Bindgen.Event
import Bindgen.Failure
import Bindgen.Syntax.Unwrap
import Bindgen.Traced

/-! # Reading types

From a place in a syntax tree to the type expression it spells. What has no
counterpart becomes the type of any value or `todo`, with an event that says
so; only a reference without a name is an error.
-/

namespace Bindgen

open Syntax

abbrev Reading := Traced Event ReadError

/-- The part of the source at `path` that a place covers, cut to 200
characters. -/
def Excerpt.ofCursor (path : String) (c : Cursor) : Excerpt where
  path := path
  nodeType := c.type
  line := c.line
  raw := String.ofList (c.text.toList.take 200)

def noteUnsupported (path context : String) (c : Cursor) : Reading Unit :=
  .note (.unsupported context (.ofCursor path c))

def Site.ofCursor (path : String) (c : Cursor) : Site := ⟨path, c.line⟩

/-- The type that a kind of syntax stands for on its own. -/
def plainType? : Kind -> Option Decl
  | .stringKeyword => some (.named "string")
  | .numberKeyword => some (.named "float")
  | .booleanKeyword => some (.named "bool")
  | .anyKeyword => some .obj
  | .voidKeyword => some .unit
  | .symbolKeyword => some (.named "Symbol")
  | .unknownKeyword => some .obj
  | .neverKeyword => some .obj
  | .objectKeyword => some .obj
  | .undefinedKeyword => some .obj
  | .nullKeyword => some .obj
  | .typePredicate => some (.named "bool")
  | .thisType => some .self
  | _ => none

/-- The kinds of types that are carried over as the type of any value. -/
def isTypeAsObj : Kind -> Bool
  | .typeLiteral => true
  | .intersectionType => true
  | .mappedType => true
  | .indexedAccessType => true
  | .typeQuery => true
  | .typeOperator => true
  | .parenthesizedType => true
  | .constructorType => true
  | .conditionalType => true
  | .templateLiteralType => true
  | .inferType => true
  | _ => false

/-- A type of a kind that has no reader of its own. -/
def readOtherType (path : String) (c : Cursor) : Reading Decl :=
  match plainType? c.kind with
  | some type => .done type
  | none =>
    if isTypeAsObj c.kind then do
      .note (.typeAsObj c.kind.name (.ofCursor path c))
      .done .obj
    else do
      noteUnsupported path "type" c
      .done .todo

/-- A reference without arguments. Of a dotted name the first part counts. -/
def readPlainReference (path : String) (c : Cursor) : Reading Decl :=
  match (Text.trim c.text).toList with
  | [] => .fail (.unnamedReference (.ofCursor path c))
  | cs => .done (.named (String.ofList (cs.takeWhile (· != '.'))))

/-- A literal type: a single string, or any value for all other literals. -/
def readLiteral (c : Cursor) : Decl :=
  match c.named.head? with
  | some literal => if literal.type == "string" then .literal (unquote literal.text) else .obj
  | none => .obj

def readTypeParams (c : Cursor) : List Decl :=
  ((c.fieldNamed "type_parameters").filter fun p => p.type == "type_parameter").map fun p =>
    let name := (p.field? "name").or p.named.head?
    .named ((name.map Cursor.text).getD "")

/-- The nodes in a parameter that are not its name. -/
def isParamDecoration (type : String) : Bool :=
  type == "type_annotation" || type == "accessibility_modifier" || type == "override_modifier" ||
    type == "decorator"

/-- What a parameter binds: its pattern, its name, or the first child that can
be one. -/
def paramPattern? (c : Cursor) : Option Cursor :=
  ((c.field? "pattern").or (c.field? "name")).or
    (c.named.find? fun child => !isParamDecoration child.type)

def isRestPattern (pattern : Option Cursor) : Bool :=
  (pattern.map fun p => p.type == "rest_pattern").getD false

/-- The text that names a parameter. Of a rest pattern it is that of the
pattern inside. -/
def patternText (pattern : Option Cursor) : String :=
  match pattern with
  | none => ""
  | some p => if p.type == "rest_pattern" then (p.named.head?.getD p).text else p.text

/-- The name of a parameter, which starts with no dot. -/
def paramName (c : Cursor) : String :=
  String.ofList ((patternText (paramPattern? c)).toList.dropWhile (· == '.'))

def isParameter (type : String) : Bool :=
  type == "required_parameter" || type == "optional_parameter" || type == "rest_parameter"

/-- The elements of a tuple that have a type annotation. -/
def isTupleMember (type : String) : Bool :=
  type == "tuple_parameter" || type == "optional_tuple_parameter" ||
    type == "required_parameter" || type == "optional_parameter"

def parameters (c : Cursor) : List Cursor :=
  (c.fieldNamed "parameters").filter fun p => isParameter p.type

def result? (c : Cursor) : Option Cursor :=
  (c.field? "return_type").or (c.field? "type")

theorem size_lt_of_mem_parameters {p c : Cursor} (h : p ∈ parameters c) : p.size < c.size :=
  Cursor.size_lt_of_mem_fieldNamed (List.mem_filter.1 h).1

theorem size_lt_of_result? {r c : Cursor} (h : result? c = some r) : r.size < c.size := by
  rcases Option.or_eq_some_iff.1 h with h | h
  · exact Cursor.size_lt_of_field? h
  · exact Cursor.size_lt_of_field? h.2

/-- The alternatives of a union that are not `null` or `undefined`. -/
def alternatives (c : Cursor) : List Cursor :=
  c.flattenUnion.filter fun a => !a.isNullish

theorem size_lt_of_mem_alternatives {a c : Cursor} (h : a ∈ alternatives c) : a.size < c.size :=
  Cursor.size_lt_of_mem_flattenUnion (List.mem_filter.1 h).1

mutual

def readType (path : String) (c : Cursor) : Reading Decl :=
  readBareType path c.unwrapType
termination_by 4 * c.size + 2
decreasing_by
  have := c.size_unwrapType_le
  omega

def readBareType (path : String) (c : Cursor) : Reading Decl :=
  match c.kind with
  | .typeReference =>
    if c.type == "generic_type" then
      if (c.fieldText "name").isEmpty then .fail (.unnamedGeneric (.ofCursor path c) c.text)
      else do
        let arguments ← Traced.traverseMem (c.fieldNamed "type_arguments") fun a _h =>
          readType path a
        .done (.generic (.named (c.fieldText "name")) arguments)
    else readPlainReference path c
  | .arrayType =>
    match _h : c.named with
    | [] => do
      noteUnsupported path "array" c
      .done .todo
    | element :: _ => do
      let element ← readType path element
      .done (.array element)
  | .unionType => do
    let types ← Traced.traverseMem (alternatives c) fun a _h => readType path a
    .done (.union (c.flattenUnion.any Cursor.isNullish) (Decl.dedupe types))
  | .tupleType => do
    let elements ← Traced.traverseMem c.named fun e _h => readTupleElement path e
    .done (.tuple elements)
  | .functionType => do
    let params ← readParams path c
    let result ← readResult path c
    .done (.function ⟨none, false, none, readTypeParams c, params, result⟩)
  | .literalType => .done (readLiteral c)
  | _ => readOtherType path c
termination_by 4 * c.size + 1
decreasing_by
  · have := Cursor.size_lt_of_mem_fieldNamed _h
    omega
  · have := Cursor.size_lt_of_named_eq_cons _h
    omega
  · have := size_lt_of_mem_alternatives _h
    omega
  · have := Cursor.size_lt_of_mem_named _h
    omega
  · omega
  · omega

/-- Read an element of a tuple. An annotated one without a type is any value. -/
def readTupleElement (path : String) (c : Cursor) : Reading Decl :=
  if c.type == "optional_type" || c.type == "rest_type" then
    match _h : c.named with
    | [] => .done .todo
    | inner :: _ => readType path inner
  else if isTupleMember c.type then
    match _h : c.field? "type" with
    | none => .done .obj
    | some type => readType path type
  else readType path c
termination_by 4 * c.size + 3
decreasing_by
  · have := Cursor.size_lt_of_named_eq_cons _h
    omega
  · have := Cursor.size_lt_of_field? _h
    omega
  · omega

/-- Read a parameter. One without a type is any value. -/
def readParam (path : String) (c : Cursor) : Reading Param := do
  let type ←
    match _h : c.field? "type" with
    | none => .done .obj
    | some type => readType path type
  .done ⟨paramName c, c.type == "optional_parameter",
    c.type == "rest_parameter" || isRestPattern (paramPattern? c), type⟩
termination_by 4 * c.size
decreasing_by
  have := Cursor.size_lt_of_field? _h
  omega

def readParams (path : String) (c : Cursor) : Reading (List Param) :=
  Traced.traverseMem (parameters c) fun p _h => readParam path p
termination_by 4 * c.size
decreasing_by
  have := size_lt_of_mem_parameters _h
  omega

/-- Read the result type of a function, which is a unit if it is not given. -/
def readResult (path : String) (c : Cursor) : Reading Decl :=
  match _h : result? c with
  | none => .done .unit
  | some result => readType path result
termination_by 4 * c.size
decreasing_by
  have := size_lt_of_result? _h
  omega

end

/-- Read the type in a field, or take a default if the field is not there. -/
def readField (path : String) (c : Cursor) (name : String) (default : Decl) : Reading Decl :=
  match c.field? name with
  | none => .done default
  | some type => readType path type

end Bindgen

import Bindgen.Syntax.Cursor
import Bindgen.Text.Blank

/-! # Kinds of syntax

The vocabulary of the declaration grammar, and which of its kinds a place in a
syntax tree is. The kind follows from the type of the node, for some types
from its tokens or its text, and inside a heritage clause from the clause.
-/

namespace Bindgen.Syntax

/-- The kinds of node that a declaration file is made of. -/
inductive Kind where
  | interfaceDeclaration
  | classDeclaration
  | enumDeclaration
  | typeAliasDeclaration
  | variableStatement
  | functionDeclaration
  | moduleDeclaration
  | importDeclaration
  | exportDeclaration
  | exportAssignment
  | namespaceExportDeclaration
  | methodSignature
  | methodDeclaration
  | propertySignature
  | propertyDeclaration
  | constructor
  | indexSignature
  | callSignature
  | constructSignature
  | getAccessor
  | setAccessor
  | stringKeyword
  | numberKeyword
  | booleanKeyword
  | anyKeyword
  | voidKeyword
  | symbolKeyword
  | unknownKeyword
  | neverKeyword
  | objectKeyword
  | undefinedKeyword
  | nullKeyword
  | typeReference
  | arrayType
  | unionType
  | tupleType
  | functionType
  | constructorType
  | literalType
  | thisType
  | typeLiteral
  | intersectionType
  | mappedType
  | indexedAccessType
  | typeQuery
  | typeOperator
  | typePredicate
  | conditionalType
  | templateLiteralType
  | inferType
  | expressionWithTypeArguments
  | parenthesizedType
  | comment
  | unknown
deriving DecidableEq

def Kind.name : Kind -> String
  | .interfaceDeclaration => "InterfaceDeclaration"
  | .classDeclaration => "ClassDeclaration"
  | .enumDeclaration => "EnumDeclaration"
  | .typeAliasDeclaration => "TypeAliasDeclaration"
  | .variableStatement => "VariableStatement"
  | .functionDeclaration => "FunctionDeclaration"
  | .moduleDeclaration => "ModuleDeclaration"
  | .importDeclaration => "ImportDeclaration"
  | .exportDeclaration => "ExportDeclaration"
  | .exportAssignment => "ExportAssignment"
  | .namespaceExportDeclaration => "NamespaceExportDeclaration"
  | .methodSignature => "MethodSignature"
  | .methodDeclaration => "MethodDeclaration"
  | .propertySignature => "PropertySignature"
  | .propertyDeclaration => "PropertyDeclaration"
  | .constructor => "Constructor"
  | .indexSignature => "IndexSignature"
  | .callSignature => "CallSignature"
  | .constructSignature => "ConstructSignature"
  | .getAccessor => "GetAccessor"
  | .setAccessor => "SetAccessor"
  | .stringKeyword => "StringKeyword"
  | .numberKeyword => "NumberKeyword"
  | .booleanKeyword => "BooleanKeyword"
  | .anyKeyword => "AnyKeyword"
  | .voidKeyword => "VoidKeyword"
  | .symbolKeyword => "SymbolKeyword"
  | .unknownKeyword => "UnknownKeyword"
  | .neverKeyword => "NeverKeyword"
  | .objectKeyword => "ObjectKeyword"
  | .undefinedKeyword => "UndefinedKeyword"
  | .nullKeyword => "NullKeyword"
  | .typeReference => "TypeReference"
  | .arrayType => "ArrayType"
  | .unionType => "UnionType"
  | .tupleType => "TupleType"
  | .functionType => "FunctionType"
  | .constructorType => "ConstructorType"
  | .literalType => "LiteralType"
  | .thisType => "ThisType"
  | .typeLiteral => "TypeLiteral"
  | .intersectionType => "IntersectionType"
  | .mappedType => "MappedType"
  | .indexedAccessType => "IndexedAccessType"
  | .typeQuery => "TypeQuery"
  | .typeOperator => "TypeOperator"
  | .typePredicate => "TypePredicate"
  | .conditionalType => "ConditionalType"
  | .templateLiteralType => "TemplateLiteralType"
  | .inferType => "InferType"
  | .expressionWithTypeArguments => "ExpressionWithTypeArguments"
  | .parenthesizedType => "ParenthesizedType"
  | .comment => "Comment"
  | .unknown => "Unknown"

/-- The kinds that a node type settles alone: statements, members and comments. -/
def Kind.ofDeclaration? : String -> Option Kind
  | "interface_declaration" => some .interfaceDeclaration
  | "class_declaration" => some .classDeclaration
  | "abstract_class_declaration" => some .classDeclaration
  | "enum_declaration" => some .enumDeclaration
  | "type_alias_declaration" => some .typeAliasDeclaration
  | "variable_declaration" => some .variableStatement
  | "lexical_declaration" => some .variableStatement
  | "function_declaration" => some .functionDeclaration
  | "function_signature" => some .functionDeclaration
  | "generator_function_declaration" => some .functionDeclaration
  | "module" => some .moduleDeclaration
  | "internal_module" => some .moduleDeclaration
  | "import_statement" => some .importDeclaration
  | "import_alias" => some .importDeclaration
  | "index_signature" => some .indexSignature
  | "property_signature" => some .propertySignature
  | "public_field_definition" => some .propertyDeclaration
  | "call_signature" => some .callSignature
  | "construct_signature" => some .constructSignature
  | "comment" => some .comment
  | _ => none

def Kind.ofKeyword? : String -> Option Kind
  | "string" => some .stringKeyword
  | "number" => some .numberKeyword
  | "bigint" => some .numberKeyword
  | "boolean" => some .booleanKeyword
  | "any" => some .anyKeyword
  | "void" => some .voidKeyword
  | "symbol" => some .symbolKeyword
  | "unique symbol" => some .symbolKeyword
  | "unknown" => some .unknownKeyword
  | "never" => some .neverKeyword
  | "object" => some .objectKeyword
  | "undefined" => some .undefinedKeyword
  | "null" => some .nullKeyword
  | _ => none

/-- The kinds of type expressions that a node type settles alone. -/
def Kind.ofType? : String -> Option Kind
  | "type_identifier" => some .typeReference
  | "nested_type_identifier" => some .typeReference
  | "generic_type" => some .typeReference
  | "array_type" => some .arrayType
  | "union_type" => some .unionType
  | "tuple_type" => some .tupleType
  | "function_type" => some .functionType
  | "constructor_type" => some .constructorType
  | "literal_type" => some .literalType
  | "this_type" => some .thisType
  | "this" => some .thisType
  | "intersection_type" => some .intersectionType
  | "lookup_type" => some .indexedAccessType
  | "type_query" => some .typeQuery
  | "index_type_query" => some .typeOperator
  | "readonly_type" => some .typeOperator
  | "type_predicate" => some .typePredicate
  | "type_predicate_annotation" => some .typePredicate
  | "asserts" => some .typePredicate
  | "asserts_annotation" => some .typePredicate
  | "conditional_type" => some .conditionalType
  | "template_literal_type" => some .templateLiteralType
  | "infer_type" => some .inferType
  | "parenthesized_type" => some .parenthesizedType
  | _ => none

/-- The clauses whose entries are references to inherited types. -/
def isHeritageClause (type : String) : Bool :=
  type == "extends_clause" || type == "implements_clause" || type == "extends_type_clause"

def isMethodType (type : String) : Bool :=
  type == "method_signature" || type == "method_definition" || type == "abstract_method_signature"

def unquote (s : String) : String :=
  String.ofList (s.toList.filter fun c => c != '\x22' && c != '\x27')

namespace Cursor

/-- The kind of an export statement that has no declaration in it. -/
def exportKind (c : Cursor) : Kind :=
  if c.hasToken "=" || c.hasToken "default" then .exportAssignment
  else if c.hasToken "as" && c.hasToken "namespace" then .namespaceExportDeclaration
  else .exportDeclaration

/-- The kind of a method: a method called `constructor` is one, then the
tokens `get` and `set` decide. -/
def methodKind (c : Cursor) : Kind :=
  if unquote (c.fieldText "name") == "constructor" then .constructor
  else if c.hasToken "get" then .getAccessor
  else if c.hasToken "set" then .setAccessor
  else if c.type == "method_definition" then .methodDeclaration
  else .methodSignature

/-- An object type whose only member is an index signature with a mapped-type
clause, as in `{ [K in keyof T]: V }`. -/
def isMappedObject (c : Cursor) : Bool :=
  match c.named with
  | [member] =>
    member.type == "index_signature" &&
      member.named.any fun clause => clause.type == "mapped_type_clause"
  | _ => false

def inHeritageClause (c : Cursor) : Bool :=
  (c.parent.map isHeritageClause).getD false

def ownKind (c : Cursor) : Kind :=
  match Kind.ofDeclaration? c.type with
  | some kind => kind
  | none =>
    if isMethodType c.type then c.methodKind
    else if c.type == "export_statement" then c.exportKind
    else if c.type == "ambient_declaration" && c.hasToken "global" then .moduleDeclaration
    else if c.type == "predefined_type" then
      (Kind.ofKeyword? (Text.trim c.text)).getD .unknown
    else
      match Kind.ofType? c.type with
      | some kind => kind
      | none =>
        if c.type == "object_type" then
          if c.isMappedObject then .mappedType else .typeLiteral
        else if c.type == "null" then .nullKeyword
        else if c.type == "undefined" then .undefinedKeyword
        else .unknown

/-- The kind of a place. Whatever stands in a heritage clause is a reference to
an inherited type, except for a separate list of type arguments. -/
def kind (c : Cursor) : Kind :=
  if c.type != "type_arguments" && c.inHeritageClause then .expressionWithTypeArguments
  else c.ownKind

def canBeNullish (type : String) : Bool :=
  type == "literal_type" || type == "predefined_type" || type == "type_identifier" ||
    type == "null" || type == "undefined"

/-- `null` or `undefined` in type position, whatever node spells it. -/
def isNullish (c : Cursor) : Bool :=
  canBeNullish c.type && (Text.trim c.text == "null" || Text.trim c.text == "undefined")

end Cursor

end Bindgen.Syntax

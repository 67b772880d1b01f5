/-! # Declarations

The declarations, members and type expressions of a binding file. One type
holds them all, because a pass may put any of them in any place; the
structures give the larger ones their fields.
-/

namespace Bindgen

/-- What the value of an enum case is known to be. -/
inductive CaseType where
  | numeric
  | text
  | unknown
deriving DecidableEq

/-- A case of an enum, with the value that is written for it. -/
structure EnumCase where
  name : String
  type : CaseType
  value : Option String
deriving DecidableEq

structure Enum where
  name : String
  cases : List EnumCase
deriving DecidableEq

/-- A value that is found at a path in the script world. Its type is text that
has been written already. -/
structure Import where
  path : List String
  binding : String
  type : String
deriving DecidableEq

mutual

/-- A declaration, a member or a type expression. -/
inductive Decl where
  | interface (value : Interface)
  | enum (value : Enum)
  | property (value : Property)
  | param (value : Param)
  | array (element : Decl)
  /-- Something that could not be read. -/
  | todo
  /-- Something that is not there. -/
  | absent
  /-- A reference to a type by its name. -/
  | named (name : String)
  | function (value : Signature)
  | union (optional : Bool) (alternatives : List Decl)
  | typeAlias (value : Alias)
  | generic (base : Decl) (arguments : List Decl)
  | tuple (elements : List Decl)
  | module (value : Module)
  | file (value : File)
  | var (value : Variable)
  /-- The type of a single string. -/
  | literal (text : String)
  | imported (value : Import)
  /-- The type of the object that a member belongs to. -/
  | self

/-- An interface. A static one holds only the static members that were taken
out of another interface. -/
structure Interface where
  isStatic : Bool
  name : String
  typeParams : List Decl
  inherits : List Decl
  members : List Decl

/-- A property; one with an `index` is an indexer. -/
structure Property where
  emit : Option String
  isStatic : Bool
  index : Option Param
  name : String
  optional : Bool
  type : Decl

/-- A parameter; `isRest` marks one that takes all further arguments. -/
structure Param where
  name : String
  optional : Bool
  isRest : Bool
  type : Decl

/-- A function or method, or without a name the type of one. -/
structure Signature where
  emit : Option String
  isStatic : Bool
  name : Option String
  typeParams : List Decl
  params : List Param
  result : Decl

structure Alias where
  name : String
  type : Decl
  typeParams : List Decl

/-- A variable; `declared` marks one that the script world provides. -/
structure Variable where
  declared : Bool
  name : String
  type : Decl

/-- A module; only the global one of a file has the empty name. -/
structure Module where
  name : String
  entries : List Decl

structure File where
  name : String
  opens : List String
  modules : List Module

end

/-- The kind of an enum is the weakest among its cases: unknown, else text,
else numeric. -/
def Enum.type (e : Enum) : CaseType :=
  if e.cases.any fun c => c.type = .unknown then .unknown
  else if e.cases.any fun c => c.type = .text then .text
  else .numeric

namespace Decl

def obj : Decl := .named "obj"

def unit : Decl := .named "unit"

def kind : Decl -> String
  | .interface _ => "interface"
  | .enum _ => "enum"
  | .property _ => "property"
  | .param _ => "param"
  | .array _ => "array"
  | .todo => "todo"
  | .absent => "none"
  | .named _ => "mapped"
  | .function _ => "function"
  | .union .. => "union"
  | .typeAlias _ => "alias"
  | .generic .. => "generic"
  | .tuple _ => "tuple"
  | .module _ => "module"
  | .file _ => "file"
  | .var _ => "variable"
  | .literal _ => "string_literal"
  | .imported _ => "import"
  | .self => "this"

def name? : Decl -> Option String
  | .interface i => some i.name
  | .enum e => some e.name
  | .property p => some p.name
  | .param p => some p.name
  | .named name => some name
  | .function f => f.name
  | .typeAlias a => some a.name
  | .module m => some m.name
  | .file f => some f.name
  | .var v => some v.name
  | _ => none

def interface? : Decl -> Option Interface
  | .interface i => some i
  | _ => none

def function? : Decl -> Option Signature
  | .function f => some f
  | _ => none

def generic? : Decl -> Option (Decl × List Decl)
  | .generic base arguments => some (base, arguments)
  | _ => none

def module? : Decl -> Option Module
  | .module m => some m
  | _ => none

def literal? : Decl -> Option String
  | .literal text => some text
  | _ => none

/-- A member or interface on the static side of a class. -/
def isStatic : Decl -> Bool
  | .function f => f.isStatic
  | .property p => p.isStatic
  | .interface i => i.isStatic
  | _ => false

end Decl

namespace Interface

def staticMembers (i : Interface) : List Decl :=
  i.members.filter Decl.isStatic

def instanceMembers (i : Interface) : List Decl :=
  i.members.filter fun m => !m.isStatic

def hasStaticMembers (i : Interface) : Bool :=
  i.members.any Decl.isStatic

end Interface

end Bindgen

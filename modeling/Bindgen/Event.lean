/-! # Events

What is worth a line in the log: parts of a source that are not carried over,
decisions of the passes, and the progress of a run.
-/

namespace Bindgen

/-- The part of a source that an event is about. -/
structure Excerpt where
  path : String
  nodeType : String
  line : Nat
  raw : String
deriving DecidableEq

inductive Event where
  /-- A node that nothing is known about, in the given kind of place. -/
  | unsupported (context : String) (excerpt : Excerpt)
  | mappedClause (excerpt : Excerpt)
  | extraBindings (excerpt : Excerpt)
  | exportAssignment (excerpt : Excerpt)
  | droppedStatement (kind : String) (excerpt : Excerpt)
  /-- A type that is carried over as the type of any value. -/
  | typeAsObj (kind : String) (excerpt : Excerpt)
  /-- A declaration where only a type can be printed. -/
  | notAType (kind : String)
  /-- A name with the mark of browser types, and what is opened for it. -/
  | browserType (name opened : String)
  | wideUnion (arity : Nat) (limit : Int)
  | passesApplied (file : String) (modules : Nat)
  | started (input root : String)
  | wrote (output : String) (lines : Nat)
deriving DecidableEq

namespace Event

/-- How much an event matters. -/
inductive Level where
  | debug
  | info
  | warning
deriving DecidableEq

def Level.name : Level -> String
  | .debug => "debug"
  | .info => "info"
  | .warning => "warning"

inductive Value where
  | text (s : String)
  | number (n : Int)
deriving DecidableEq

def message : Event -> String
  | .unsupported .. => "Unsupported TypeScript node kind"
  | .mappedClause _ => "Mapped type clause in member position"
  | .extraBindings _ => "Only the first variable binding is kept"
  | .exportAssignment _ => "Export assignment dropped"
  | .droppedStatement .. => "Import/export statement dropped"
  | .typeAsObj .. => "Type mapped to obj"
  | .notAType _ => "Unsupported type in print_type"
  | .browserType .. => "Browser types referenced"
  | .wideUnion .. => "Union too wide, using obj"
  | .passesApplied .. => "Fix passes applied"
  | .started .. => "Translating declaration file"
  | .wrote .. => "Wrote F# bindings"

/-- How much an event matters: what is not understood is a warning, a written
file is information, and the rest is detail. -/
def level : Event -> Level
  | .unsupported .. => .warning
  | .notAType _ => .warning
  | .wrote .. => .info
  | _ => .debug

def excerptFields (x : Excerpt) : List (String × Value) :=
  [("path", .text x.path), ("node_type", .text x.nodeType), ("line", .number x.line),
   ("raw", .text x.raw)]

def fields : Event -> List (String × Value)
  | .unsupported context x => ("context", .text context) :: excerptFields x
  | .mappedClause x => excerptFields x
  | .extraBindings x => excerptFields x
  | .exportAssignment x => excerptFields x
  | .droppedStatement kind x => ("kind", .text kind) :: excerptFields x
  | .typeAsObj kind x => ("kind", .text kind) :: excerptFields x
  | .notAType kind => [("kind", .text kind)]
  | .browserType name opened => [("example", .text name), ("open", .text opened)]
  | .wideUnion arity limit => [("arity", .number arity), ("max_arity", .number limit)]
  | .passesApplied file modules => [("file", .text file), ("modules", .number modules)]
  | .started input root => [("input", .text input), ("namespace", .text root)]
  | .wrote output lines => [("output", .text output), ("lines", .number lines)]

def Value.shown : Value -> String
  | .text s => s
  | .number n => toString n

def line (e : Event) : String :=
  e.fields.foldl (fun line (name, value) => line ++ " " ++ name ++ "=" ++ value.shown)
    ("[" ++ e.level.name ++ "] " ++ e.message)

end Event

end Bindgen

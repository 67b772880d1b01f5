import Bindgen.Text.Fields

/-! # Words of the generated language

Which names can stand in F# source as they are. `escape` puts double backticks
around the others, `unescape` takes them off, and `enumName` turns any text
into a capitalised identifier for an enum case.
-/

namespace Bindgen.Word

def keywords : List String :=
  ["abstract", "and", "as", "assert", "base", "begin", "class", "default", "delegate", "do",
   "done", "downcast", "downto", "elif", "else", "end", "exception", "extern", "false",
   "finally", "fixed", "for", "fun", "function", "global", "if", "in", "inherit", "inline",
   "interface", "internal", "lazy", "let", "match", "member", "module", "mutable",
   "namespace", "new", "not", "null", "of", "open", "or", "override", "private", "public",
   "rec", "return", "select", "sig", "static", "struct", "then", "to", "true", "try",
   "type", "upcast", "use", "val", "void", "when", "while", "with", "yield"]

/-- Identifiers that F# keeps for later use. -/
def futureWords : List String :=
  ["atomic", "break", "checked", "component", "const", "constraint", "constructor",
   "continue", "eager", "event", "external", "functor", "include", "method", "mixin",
   "object", "parallel", "process", "protected", "pure", "sealed", "tailcall", "trait",
   "virtual", "volatile"]

def isReserved (name : String) : Bool :=
  keywords.contains name || futureWords.contains name

/-- An ASCII letter or an underscore. -/
def isHead (c : Char) : Bool :=
  c.isAlpha || c == '_'

def isWordChar (c : Char) : Bool :=
  isHead c || c.isDigit

/-- The characters after the first of an identifier: word characters and
apostrophes. One line feed may stand at the very end. -/
def isTail : List Char -> Bool
  | [] => true
  | ['\n'] => true
  | c :: cs => (isWordChar c || c == '\x27') && isTail cs

/-- An identifier, with or without a line feed behind it. -/
def isIdentifier : List Char -> Bool
  | [] => false
  | c :: cs => isHead c && isTail cs

def isIdentifierPath (name : String) : Bool :=
  (Text.fields (· == '.') name.toList).all isIdentifier

def ticks : List Char :=
  ['\x60', '\x60']

/-- A name that both starts and ends with two backticks. They may overlap, as in
a name of two or three backticks. -/
def isTicked (cs : List Char) : Bool :=
  ticks.isPrefixOf cs && ticks.isSuffixOf cs

/-- The spelling of a name in F# source: reserved words and names that are no
identifier path stand between double backticks. The empty name and a name that
already stands between them are left alone. -/
def escape (name : String) : String :=
  if name.isEmpty || isTicked name.toList then name
  else if isReserved name || !isIdentifierPath name then
    String.ofList (ticks ++ name.toList ++ ticks)
  else name

/-- Take the double backticks off a name that has something between them. -/
def unescape (name : String) : String :=
  let cs := name.toList
  if 4 < cs.length && isTicked cs then String.ofList ((cs.drop 2).take (cs.length - 4))
  else name

def capitalize : List Char -> List Char
  | [] => []
  | c :: cs => c.toUpper :: cs

/-- The capitalised runs of word characters of a text, joined. -/
def pascalCase (cs : List Char) : List Char :=
  ((Text.fields (!isWordChar ·) cs).filter (!·.isEmpty)).flatMap capitalize

/-- An identifier for an enum case: `blue` gives `Blue`, `foo-bar` gives
`FooBar`, and a text without word characters gives `Empty`. An underscore goes
before a leading digit. -/
def enumName (name : String) : String :=
  match pascalCase name.toList with
  | [] => "Empty"
  | c :: cs => escape (String.ofList (if c.isDigit then '_' :: c :: cs else c :: cs))

end Bindgen.Word

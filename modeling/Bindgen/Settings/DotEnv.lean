import Bindgen.Text.Blank

/-! # Files of variables

A file of `NAME=value` lines. Blank lines and lines that start with `#` are
skipped. A value may stand in single or double quotes, an unquoted one ends
before a blank and a `#`, and `${NAME}` or `${NAME:-default}` in a value
stands for a variable that is known already. A mark of the byte order at the
start of the file is left out, and all ends of lines count as line feeds.
-/

namespace Bindgen.DotEnv

/-- The text with a line feed for every end of a line. -/
def lineFeeds : List Char -> List Char
  | '\r' :: '\n' :: rest => '\n' :: lineFeeds rest
  | '\r' :: rest => '\n' :: lineFeeds rest
  | c :: rest => c :: lineFeeds rest
  | [] => []

/-- The text without a mark of the byte order at its start. -/
def withoutMark : List Char -> List Char
  | [] => []
  | c :: rest => if c.toNat = 0xfeff then rest else c :: rest

def isLineEnd (c : Char) : Bool :=
  c == '\n'

def isInnerBlank (c : Char) : Bool :=
  Text.isBlank c && !isLineEnd c

def isNameChar (c : Char) : Bool :=
  c != '=' && c != '#' && !Text.isBlank c

def skipBlanks (cs : List Char) : List Char :=
  cs.dropWhile isInnerBlank

def skipLine (cs : List Char) : List Char :=
  match cs.dropWhile (!isLineEnd ·) with
  | [] => []
  | _ :: rest => rest

/-- The text behind the word `export`, if blanks follow it. -/
def skipExport (cs : List Char) : List Char :=
  let word := ['e', 'x', 'p', 'o', 'r', 't']
  if word.isPrefixOf cs then
    let rest := cs.drop word.length
    if (rest.head?.map isInnerBlank).getD false then skipBlanks rest else cs
  else cs

/-- Read up to the closing quote. A backslash keeps the character behind it
from closing. -/
def quoted? (quote : Char) : List Char -> Option (List Char × List Char)
  | [] => none
  | '\\' :: c :: rest => (quoted? quote rest).map fun (value, rest) => ('\\' :: c :: value, rest)
  | c :: rest =>
    if c = quote then some ([], rest)
    else (quoted? quote rest).map fun (value, rest) => (c :: value, rest)

def doubleEscape? : Char -> Option Char
  | '\\' => some '\\'
  | '\x27' => some '\x27'
  | '\x22' => some '\x22'
  | 'a' => some '\x07'
  | 'b' => some '\x08'
  | 'f' => some '\x0c'
  | 'n' => some '\n'
  | 'r' => some '\r'
  | 't' => some '\t'
  | 'v' => some '\x0b'
  | _ => none

def singleEscape? : Char -> Option Char
  | '\\' => some '\\'
  | '\x27' => some '\x27'
  | _ => none

/-- Replace the escapes that are known; other backslashes stay. -/
def unescape (known : Char -> Option Char) : List Char -> List Char
  | [] => []
  | '\\' :: c :: rest =>
    match known c with
    | some d => d :: unescape known rest
    | none => '\\' :: unescape known (c :: rest)
  | c :: rest => c :: unescape known rest

def withoutComment : List Char -> List Char
  | [] => []
  | c :: rest =>
    if Text.isBlank c && (rest.dropWhile Text.isBlank).head? == some '#' then []
    else c :: withoutComment rest

/-! Each of the following reads something from the start of a text and gives it
with the text behind it, or the text from where it cannot be read on. -/

def quotedValue (known : Char -> Option Char) (quote : Char) (cs : List Char) :
    Except (List Char) (List Char × List Char) :=
  match quoted? quote (cs.drop 1) with
  | some (value, rest) => .ok (unescape known value, rest)
  | none => .error cs

def value (cs : List Char) : Except (List Char) (List Char × List Char) :=
  match skipBlanks cs with
  | '\x27' :: rest => quotedValue singleEscape? '\x27' ('\x27' :: rest)
  | '\x22' :: rest => quotedValue doubleEscape? '\x22' ('\x22' :: rest)
  | _ =>
    let line := cs.takeWhile (!isLineEnd ·)
    .ok (Text.trimChars Text.isBlank (withoutComment line), cs.dropWhile (!isLineEnd ·))

/-- Read a name. A comment has none. -/
def name (cs : List Char) : Except (List Char) (Option (List Char) × List Char) :=
  match cs with
  | '#' :: _ => .ok (none, cs)
  | '\x27' :: rest =>
    let name := rest.takeWhile (· != '\x27')
    match name, rest.dropWhile (· != '\x27') with
    | _ :: _, _ :: rest => .ok (some name, rest)
    | _, _ => .error cs
  | _ =>
    match cs.takeWhile isNameChar with
    | [] => .error cs
    | name => .ok (some name, cs.dropWhile isNameChar)

def skipComment (cs : List Char) : List Char :=
  match skipBlanks cs with
  | '#' :: rest => rest.dropWhile (!isLineEnd ·)
  | _ => cs

/-- The text behind the end of a line that has nothing left but blanks. -/
def lineEnd (cs : List Char) : Except (List Char) (List Char) :=
  match skipBlanks cs with
  | [] => .ok []
  | c :: rest => if isLineEnd c then .ok rest else .error cs

/-- A line: a name with its value, a name alone, or nothing. -/
abbrev Line := Option (List Char × Option (List Char))

def line (cs : List Char) : Except (List Char) (Line × List Char) := do
  let (name, rest) ← name (skipExport cs)
  let rest := skipBlanks rest
  let (value, rest) ←
    match rest with
    | '=' :: rest => (value rest).map fun (value, rest) => (some value, rest)
    | _ => .ok (none, rest)
  let rest ← lineEnd (skipComment rest)
  .ok (name.map fun name => (name, value), rest)

def lines : Nat -> List Char -> List (List Char × Option (List Char))
  | 0, _ => []
  | fuel + 1, cs =>
    match cs.dropWhile Text.isBlank with
    | [] => []
    | cs =>
      match line cs with
      | .ok (line, rest) => line.toList ++ lines fuel rest
      -- What cannot be read costs the rest of its line, not the lines behind it.
      | .error rest => lines fuel (skipLine rest)

/-- Give a variable a value. One that has a value keeps its place. -/
def assign {α : Type} (name : String) (value : α) : List (String × α) -> List (String × α)
  | [] => [(name, value)]
  | (other, old) :: rest =>
    if other = name then (name, value) :: rest else (other, old) :: assign name value rest

def lookup (known : List (String × Option String)) (environment : List (String × String))
    (name : String) : Option String :=
  match known.lookup name with
  | some value => some (value.getD "")
  | none => environment.reverse.lookup name

/-- Read a reference to a variable behind its opening brace: its name, its
default and the rest. -/
def reference? (cs : List Char) : Option (List Char × List Char × List Char) :=
  let name := cs.takeWhile fun c => c != '\x7d' && c != ':'
  match cs.drop name.length with
  | '\x7d' :: rest => some (name, [], rest)
  | ':' :: '-' :: rest =>
    match rest.dropWhile (· != '\x7d') with
    | _ :: after => some (name, rest.takeWhile (· != '\x7d'), after)
    | [] => none
  | _ => none

/-- Put the values of variables in the place of references to them. -/
def expand (find : String -> Option String) : Nat -> List Char -> List Char
  | 0, cs => cs
  | _ + 1, [] => []
  | fuel + 1, '$' :: '\x7b' :: rest =>
    match reference? rest with
    | some (name, default, after) =>
      ((find (String.ofList name)).getD (String.ofList default)).toList ++ expand find fuel after
    | none => '$' :: expand find fuel ('\x7b' :: rest)
  | fuel + 1, c :: rest => c :: expand find fuel rest

/-- Expand the values one after the other; each may refer to those before it. -/
def expandAll (environment : List (String × String)) (known : List (String × Option String)) :
    List (List Char × Option (List Char)) -> List (String × Option String)
  | [] => known
  | (name, value) :: rest =>
    let value := value.map fun cs =>
      String.ofList (expand (lookup known environment) cs.length cs)
    expandAll environment (assign (String.ofList name) value known) rest

/-- The variables of a file, in the order in which their names first stand there.
A name without a value has none. -/
def read (environment : List (String × String)) (content : String) :
    List (String × Option String) :=
  let cs := lineFeeds (withoutMark content.toList)
  -- Every line takes at least one character.
  expandAll environment [] (lines (cs.length + 1) cs)

end Bindgen.DotEnv

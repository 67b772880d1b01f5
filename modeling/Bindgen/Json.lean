/-! # JSON values

The values that a setting can be given, and a reader for them. The reader
also takes the words `NaN`, `Infinity` and `-Infinity`, and a string may hold
any escape, even one for half of a surrogate pair; such a value is kept apart
as `notText`. It does not take whole numbers of more than 4300 digits.
-/

namespace Bindgen

inductive Json where
  | null
  | bool (b : Bool)
  /-- A number that is written without a point and without a power. -/
  | whole (n : Int)
  /-- Any other number, as a mantissa and a power of ten. -/
  | decimal (mantissa exponent : Int)
  | notFinite
  | string (s : String)
  /-- A string that is no sequence of characters. -/
  | notText
  | array (elements : List Json)
  | object (fields : List (String × Json))

namespace Json

/-- The value of a hexadecimal digit. -/
def hexDigit? (c : Char) : Option Nat :=
  if c.isDigit then some (c.toNat - 48)
  else if 97 ≤ c.toNat && c.toNat ≤ 102 then some (c.toNat - 87)
  else if 65 ≤ c.toNat && c.toNat ≤ 70 then some (c.toNat - 55)
  else none

def hex4? (a b c d : Char) : Option Nat :=
  match hexDigit? a, hexDigit? b, hexDigit? c, hexDigit? d with
  | some a, some b, some c, some d => some (((a * 16 + b) * 16 + c) * 16 + d)
  | _, _, _, _ => none

def escaped? (c : Char) : Option Nat :=
  match c with
  | '\x22' => some 34
  | '\\' => some 92
  | '/' => some 47
  | 'b' => some 8
  | 'f' => some 12
  | 'n' => some 10
  | 'r' => some 13
  | 't' => some 9
  | _ => none

/-- Read the rest of a string behind its opening quote, as numbers of
characters or of halves of surrogate pairs; `before` holds those that are read
already, the last one first. -/
def unitsAfter (before : List Nat) : List Char -> Option (List Nat × List Char)
  | [] => none
  | '\x22' :: rest => some (before.reverse, rest)
  | '\\' :: 'u' :: a :: b :: c :: d :: rest =>
    match hex4? a b c d with
    | some u => unitsAfter (u :: before) rest
    | none => none
  | '\\' :: c :: rest =>
    match escaped? c with
    | some u => unitsAfter (u :: before) rest
    | none => none
  | c :: rest => if c.toNat < 0x20 then none else unitsAfter (c.toNat :: before) rest

def stringUnits (cs : List Char) : Option (List Nat × List Char) :=
  unitsAfter [] cs

/-- The first half of a surrogate pair. -/
def isHigh (u : Nat) : Bool := 0xd800 ≤ u && u ≤ 0xdbff

/-- The second half of a surrogate pair. -/
def isLow (u : Nat) : Bool := 0xdc00 ≤ u && u ≤ 0xdfff

def joined (high low : Nat) : Char :=
  Char.ofNat (0x10000 + (high - 0xd800) * 0x400 + (low - 0xdc00))

/-- Join the halves of surrogate pairs; a half on its own is no character.
`before` holds the characters so far, the last one first. -/
def charactersAfter (before : List Char) : List Nat -> Option (List Char)
  | [] => some before.reverse
  | u :: v :: rest =>
    if isHigh u && isLow v then charactersAfter (joined u v :: before) rest
    else if isHigh u || isLow u then none
    else charactersAfter (Char.ofNat u :: before) (v :: rest)
  | [u] => if isHigh u || isLow u then none else some (Char.ofNat u :: before).reverse

def characters? (units : List Nat) : Option (List Char) :=
  charactersAfter [] units

def ofUnits (units : List Nat) : Json :=
  match characters? units with
  | some cs => .string (String.ofList cs)
  | none => .notText

def isGap (c : Char) : Bool :=
  c == ' ' || c == '\t' || c == '\n' || c == '\r'

def skipGap (cs : List Char) : List Char :=
  cs.dropWhile isGap

def digitsValue (cs : List Char) : Nat :=
  cs.foldl (fun n c => 10 * n + (c.toNat - 48)) 0

/-- Read a fraction: its digits, none if there is none. -/
def fraction (cs : List Char) : List Char × List Char :=
  match cs with
  | '.' :: rest =>
    match rest.takeWhile Char.isDigit with
    | [] => ([], cs)
    | digits => (digits, rest.dropWhile Char.isDigit)
  | _ => ([], cs)

def sign (cs : List Char) : Int × List Char :=
  match cs with
  | '-' :: rest => (-1, rest)
  | '+' :: rest => (1, rest)
  | _ => (1, cs)

def power (cs : List Char) : Option Int × List Char :=
  match cs with
  | c :: rest =>
    if c == 'e' || c == 'E' then
      let (s, digits) := sign rest
      match digits.takeWhile Char.isDigit with
      | [] => (none, cs)
      | ds => (some (s * digitsValue ds), digits.dropWhile Char.isDigit)
    else (none, cs)
  | [] => (none, cs)

/-- Read the digits of a whole number, which starts with no needless zero. -/
def whole? (cs : List Char) : Option (List Char × List Char) :=
  match cs with
  | '0' :: rest => some (['0'], rest)
  | _ =>
    match cs.takeWhile Char.isDigit with
    | [] => none
    | digits => some (digits, cs.dropWhile Char.isDigit)

def maxDigits : Nat := 4300

/-- Read a number without its minus sign. -/
def magnitude? (s : Int) (cs : List Char) : Option (Json × List Char) :=
  match whole? cs with
  | none => none
  | some (digits, rest) =>
    let (places, rest) := fraction rest
    let (exponent, rest) := power rest
    if places.isEmpty && exponent.isNone then
      if digits.length ≤ maxDigits then some (.whole (s * digitsValue digits), rest) else none
    else
      some (.decimal (s * digitsValue (digits ++ places)) (exponent.getD 0 - places.length), rest)

def word? (word : String) (value : Json) (cs : List Char) : Option (Json × List Char) :=
  if word.toList.isPrefixOf cs then some (value, cs.drop word.toList.length) else none

def token? (cs : List Char) : Option (Json × List Char) :=
  match cs with
  | '\x22' :: rest => (stringUnits rest).map fun (units, rest) => (ofUnits units, rest)
  | 'n' :: _ => word? "null" .null cs
  | 't' :: _ => word? "true" (.bool true) cs
  | 'f' :: _ => word? "false" (.bool false) cs
  | 'N' :: _ => word? "NaN" .notFinite cs
  | 'I' :: _ => word? "Infinity" .notFinite cs
  | '-' :: 'I' :: _ => word? "-Infinity" .notFinite cs
  | '-' :: rest => magnitude? (-1) rest
  | _ => magnitude? 1 cs

/-- The key that a string token is; one that is no text is as good as any. -/
def keyText : Json -> String
  | .string s => s
  | _ => ""

mutual

/-- Read a value; `fuel` bounds the number of tokens. -/
def value? : Nat -> List Char -> Option (Json × List Char)
  | 0, _ => none
  | fuel + 1, cs =>
    match cs with
    | '[' :: rest =>
      match skipGap rest with
      | ']' :: rest => some (.array [], rest)
      | rest => (elements? fuel rest).map fun (elements, rest) => (.array elements, rest)
    | '\x7b' :: rest =>
      match skipGap rest with
      | '\x7d' :: rest => some (.object [], rest)
      | rest => (fields? fuel rest).map fun (fields, rest) => (.object fields, rest)
    | _ => token? cs

def elements? : Nat -> List Char -> Option (List Json × List Char)
  | 0, _ => none
  | fuel + 1, cs =>
    match value? fuel cs with
    | none => none
    | some (element, rest) =>
      match skipGap rest with
      | ']' :: rest => some ([element], rest)
      | ',' :: rest =>
        (elements? fuel (skipGap rest)).map fun (elements, rest) => (element :: elements, rest)
      | _ => none

def fields? : Nat -> List Char -> Option (List (String × Json) × List Char)
  | 0, _ => none
  | fuel + 1, cs =>
    match cs with
    | '\x22' :: rest =>
      match stringUnits rest with
      | none => none
      | some (units, rest) =>
        match skipGap rest with
        | ':' :: rest =>
          match value? fuel (skipGap rest) with
          | none => none
          | some (value, rest) =>
            let field := (keyText (ofUnits units), value)
            match skipGap rest with
            | '\x7d' :: rest => some ([field], rest)
            | ',' :: rest =>
              (fields? fuel (skipGap rest)).map fun (fields, rest) => (field :: fields, rest)
            | _ => none
        | _ => none
    | _ => none

end

def read? (s : String) : Option Json :=
  let cs := skipGap s.toList
  -- Every step takes a character, so the fuel is never used up.
  match value? (2 * cs.length + 1) cs with
  | none => none
  | some (value, rest) => if (skipGap rest).isEmpty then some value else none

end Json

end Bindgen

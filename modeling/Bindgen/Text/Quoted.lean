/-! # Attribute strings

A text between double quotes writes a backslash and a double quote with a
backslash before it and everything else as it is. `decode` reads such a text
up to its closing quote.
-/

namespace Bindgen.Text.Quoted

def encodeChars : List Char -> List Char
  | [] => []
  | c :: cs =>
    if c = '\\' || c = '\x22' then '\\' :: c :: encodeChars cs
    else c :: encodeChars cs

def encode (s : String) : String :=
  String.ofList (encodeChars s.toList)

/-- Read up to the first double quote that no backslash announces; the value
read and what follows the quote. A backslash stands for itself unless a
backslash or a quote follows. -/
def decode : List Char -> Option (List Char × List Char)
  | [] => none
  | '\\' :: '\\' :: cs => (decode cs).map fun (value, rest) => ('\\' :: value, rest)
  | '\\' :: '\x22' :: cs => (decode cs).map fun (value, rest) => ('\x22' :: value, rest)
  | c :: cs =>
    if c = '\x22' then some ([], cs)
    else (decode cs).map fun (value, rest) => (c :: value, rest)

/-- Reading a written text gives it back and stops behind its closing quote. -/
theorem decode_encodeChars (s rest : List Char) :
    decode (encodeChars s ++ '\x22' :: rest) = some (s, rest) := by
  induction s with
  | nil => simp [encodeChars, decode]
  | cons c cs ih =>
    by_cases hb : c = '\\'
    · subst hb
      simp [encodeChars, decode, ih]
    · by_cases hq : c = '\x22'
      · subst hq
        simp [encodeChars, decode, ih]
      · simp [encodeChars, hb, hq, decode, ih]

end Bindgen.Text.Quoted

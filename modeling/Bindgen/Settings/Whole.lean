import Bindgen.Json
import Bindgen.Text.Blank

/-! # Whole numbers

The whole number that a text or a decimal number stands for. A text may have
spaces around it, a plus sign, leading zeros, underscores between digits and a
fraction of zeros. A decimal number counts as the binary number with 53
significant bits that is nearest to it.
-/

namespace Bindgen.Whole

/-- The digits of a whole number, of which none is a needless zero. -/
def digits? (cs : List Char) : Option Nat :=
  match cs with
  | [] => none
  | ['0'] => some 0
  | '0' :: _ => none
  | _ => if cs.all Char.isDigit then some (Json.digitsValue cs) else none

/-- A whole number of at most 4300 digits. -/
def unsigned? (cs : List Char) : Option Nat :=
  if Json.maxDigits < cs.length then none else digits? cs

def signed? : List Char -> Option Int
  | '-' :: rest => (unsigned? rest).map fun n => -(n : Int)
  | cs => (unsigned? cs).map fun n => (n : Int)

/-- The text without a plus sign in front; a minus sign may not follow it. -/
def withoutPlus? : List Char -> Option (List Char)
  | '+' :: '-' :: _ => none
  | '+' :: cs => some cs
  | cs => some cs

/-- The text behind leading zeros, of which `last` is the last character. One
zero stays before a point and at the end. Underscores count as zeros, and a
minus sign may follow them. -/
def behindZeros? (last : Char) : List Char -> Option (List Char)
  | [] => some [last]
  | c :: cs =>
    if c == '0' || c == '_' then behindZeros? c cs
    else if c.isDigit || c == '-' then some (c :: cs)
    else if c == '.' then some (last :: c :: cs)
    else none

def withoutZeros? : List Char -> Option (List Char)
  | [] => none
  | c :: cs =>
    if c == '0' then behindZeros? c cs
    else if c.isDigit then some (c :: cs)
    else none

/-- The text without the zeros that lead it or follow a minus sign at its
start. -/
def withoutLeadingZeros? : List Char -> Option (List Char)
  | '-' :: cs => (withoutZeros? cs).map fun cs => '-' :: cs
  | cs => withoutZeros? cs

/-- The text without a fraction of one or more zeros. -/
def withoutPlaces (cs : List Char) : List Char :=
  match cs.dropWhile (· != '.') with
  | _ :: c :: places =>
    if (c :: places).all (· == '0') then cs.takeWhile (· != '.') else cs
  | _ => cs

def hasDoubleUnderscore : List Char -> Bool
  | '_' :: '_' :: _ => true
  | _ :: cs => hasDoubleUnderscore cs
  | [] => false

/-- The text without its underscores, if each of them is a single one inside the
text; else the text as it is. -/
def withoutUnderscores (cs : List Char) : List Char :=
  if cs.head? == some '_' || cs.getLast? == some '_' || hasDoubleUnderscore cs then cs
  else cs.filter (· != '_')

def ofText? (s : String) : Option Int := do
  let cs ← withoutPlus? (Text.trimChars Text.isSpace s.toList)
  let cs ← withoutLeadingZeros? cs
  signed? (withoutUnderscores (withoutPlaces cs))

/-- The quotient rounded to the nearest whole number, a half to the even one. -/
def roundDiv (n d : Nat) : Nat :=
  let quotient := n / d
  let double := 2 * (n % d)
  if double < d || (double == d && quotient % 2 == 0) then quotient else quotient + 1

/-- A power of two, or 1 for a negative exponent. -/
def twoTo (exponent : Int) : Nat :=
  Nat.pow 2 exponent.toNat

/-- The exponent of the last significant bit of `n / d`, which has 53 of them
unless it is tiny. -/
def lastBit (n d : Nat) : Int :=
  let first := (n.log2 : Int) - d.log2
  let first := if n * twoTo (-first) < d * twoTo first then first - 1 else first
  max (first - 52) (-1074)

/-- The whole number that is the nearest binary number to `n / d`, if that one
is whole. -/
def nearest? (n d : Nat) : Option Nat :=
  let exponent := lastBit n d
  let significand := roundDiv (n * twoTo (-exponent)) (d * twoTo exponent)
  if significand % twoTo (-exponent) == 0 then
    some (significand * twoTo exponent / twoTo (-exponent))
  else none

/-- The whole number that `mantissa * 10 ^ exponent` is nearest to, if the nearest
binary number is whole. -/
def magnitude? (mantissa : Nat) (exponent : Int) : Option Nat :=
  if mantissa = 0 then some 0
  else if 400 < exponent then none
  else if exponent + mantissa.log2 < -400 then some 0
  else nearest? (mantissa * Nat.pow 10 exponent.toNat) (Nat.pow 10 (-exponent).toNat)

/-- The whole number that a decimal number stands for. It has to be less than
two to the 63rd in size. -/
def ofDecimal? (mantissa exponent : Int) : Option Int :=
  match magnitude? mantissa.natAbs exponent with
  | some n => if n < twoTo 63 then some (mantissa.sign * n) else none
  | none => none

end Bindgen.Whole

/-! # Lenient UTF-8

Every list of bytes decodes to a text: each maximal part that is no character
becomes one U+FFFD. The decoder is a machine that reads each byte once and
keeps what it still expects of the character it is in.
-/

namespace Bindgen.Text.Utf8

/-- A character whose first bytes were read: the bits so far, the number of
bytes still to come, and the range that the next one must lie in. -/
structure Partial where
  bits : Nat
  missing : Nat
  low : Nat
  high : Nat

/-- What one byte leads to: a finished character or a started one. -/
inductive Step where
  | emit (c : Char)
  | wait (p : Partial)

def replacement : Char := Char.ofNat 0xfffd

def first (b : Nat) : Step :=
  -- The tighter ranges after E0, ED, F0 and F4 rule out overlong forms, surrogates
  -- and values above U+10FFFF.
  if b < 0x80 then .emit (Char.ofNat b)
  else if 0xc2 ≤ b && b ≤ 0xdf then .wait ⟨b % 0x20, 1, 0x80, 0xbf⟩
  else if b == 0xe0 then .wait ⟨0, 2, 0xa0, 0xbf⟩
  else if b == 0xed then .wait ⟨0xd, 2, 0x80, 0x9f⟩
  else if 0xe1 ≤ b && b ≤ 0xef then .wait ⟨b % 0x10, 2, 0x80, 0xbf⟩
  else if b == 0xf0 then .wait ⟨0, 3, 0x90, 0xbf⟩
  else if b == 0xf4 then .wait ⟨4, 3, 0x80, 0x8f⟩
  else if 0xf1 ≤ b && b ≤ 0xf3 then .wait ⟨b % 8, 3, 0x80, 0xbf⟩
  else .emit replacement

def Partial.next (p : Partial) (b : Nat) : Step :=
  if p.missing ≤ 1 then .emit (Char.ofNat (p.bits * 0x40 + b % 0x40))
  else .wait ⟨p.bits * 0x40 + b % 0x40, p.missing - 1, 0x80, 0xbf⟩

def decodeFrom : Option Partial -> List UInt8 -> List Char
  | none, [] => []
  | some _, [] => [replacement]
  | none, b :: bs =>
    match first b.toNat with
    | .emit c => c :: decodeFrom none bs
    | .wait p => decodeFrom (some p) bs
  | some p, b :: bs =>
    if p.low ≤ b.toNat && b.toNat ≤ p.high then
      match p.next b.toNat with
      | .emit c => c :: decodeFrom none bs
      | .wait q => decodeFrom (some q) bs
    else
      match first b.toNat with
      | .emit c => replacement :: c :: decodeFrom none bs
      | .wait q => replacement :: decodeFrom (some q) bs

def decode (bytes : List UInt8) : String :=
  String.ofList (decodeFrom none bytes)

end Bindgen.Text.Utf8

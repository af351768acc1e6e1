/-!
# Base 64

Bytes written six bits a character, with equals signs for what is missing in the last group of
four characters. Reading is lenient: characters outside of the alphabet are passed over, and what
stands behind a group that equals signs complete is not read. A last group that is not complete is
a fault.
-/

namespace XoLang.Text.Base64

/-- The six bits that a character of the alphabet stands for. -/
def sextet? (c : Char) : Option Nat :=
  if 'A' ≤ c && c ≤ 'Z' then some (c.toNat - 65)
  else if 'a' ≤ c && c ≤ 'z' then some (c.toNat - 71)
  else if '0' ≤ c && c ≤ '9' then some (c.toNat + 4)
  else if c = '+' then some 62
  else if c = '/' then some 63
  else none

/-- The whole bytes in a group of up to four sextets. -/
def groupBytes : List Nat → List UInt8
  | [a, b] => [(4 * a + b / 16).toUInt8]
  | [a, b, c] => [(4 * a + b / 16).toUInt8, (16 * b + c / 4).toUInt8]
  | [a, b, c, d] => [(4 * a + b / 16).toUInt8, (16 * b + c / 4).toUInt8, (64 * c + d).toUInt8]
  | _ => []

/-- Read on after a group of less than four sextets and `pads` equals signs in it. -/
def decodeAfter (group : List Nat) (pads : Nat) : List Char → Option (List UInt8)
  | [] => if group.isEmpty then some [] else none
  | c :: cs =>
    if c = '=' then
      if group.length < 2 then decodeAfter group pads cs
      else if 4 ≤ group.length + pads + 1 then some (groupBytes group)
      else decodeAfter group (pads + 1) cs
    else
      match sextet? c with
      | none => decodeAfter group pads cs
      | some bits =>
        if group.length = 3 then
          (decodeAfter [] 0 cs).map (groupBytes (group ++ [bits]) ++ ·)
        else decodeAfter (group ++ [bits]) 0 cs

/-- The bytes that a text stands for. -/
def decode? (text : List Char) : Option (List UInt8) := decodeAfter [] 0 text

end XoLang.Text.Base64

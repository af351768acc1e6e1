import XoLang.Text.Blank

/-!
# Decimal digits

A decimal digit is a character of general category Nd in Unicode 14.0. Such characters come in
runs of ten, so a table of the zeros gives the value of every digit. Numbers may be written with
digits of any script and with blanks around them; in the plain form of a text they are ASCII.
-/

namespace XoLang.Text

/-- The zeros of the decimal digits, in ascending order. -/
def digitZeros : List Nat :=
  [0x30, 0x660, 0x6f0, 0x7c0, 0x966, 0x9e6, 0xa66, 0xae6, 0xb66, 0xbe6, 0xc66, 0xce6, 0xd66, 0xde6,
   0xe50, 0xed0, 0xf20, 0x1040, 0x1090, 0x17e0, 0x1810, 0x1946, 0x19d0, 0x1a80, 0x1a90, 0x1b50,
   0x1bb0, 0x1c40, 0x1c50, 0xa620, 0xa8d0, 0xa900, 0xa9d0, 0xa9f0, 0xaa50, 0xabf0, 0xff10,
   0x104a0, 0x10d30, 0x11066, 0x110f0, 0x11136, 0x111d0, 0x112f0, 0x11450, 0x114d0, 0x11650,
   0x116c0, 0x11730, 0x118e0, 0x11950, 0x11c50, 0x11d50, 0x11da0, 0x16a60, 0x16ac0, 0x16b50,
   0x1d7ce, 0x1d7d8, 0x1d7e2, 0x1d7ec, 0x1d7f6, 0x1e140, 0x1e2f0, 0x1e950, 0x1fbf0]

/-- The value of a decimal digit. -/
def digitValue? (c : Char) : Option Nat :=
  (digitZeros.find? fun start => start ≤ c.toNat && c.toNat < start + 10).map (c.toNat - ·)

/-- A character in its plain form: a digit of any script as an ASCII digit, and a blank as a space.
A character beyond ASCII that is neither has no plain form and is read as a question mark. -/
def plainChar (c : Char) : Char :=
  if c.toNat < 0x80 then c
  else if isBlank c then ' '
  else
    match digitValue? c with
    | some d => Char.ofNat (48 + d)
    | none => '?'

/-- Blanks that may surround a number in its plain form. -/
def isNumberBlank (c : Char) : Bool := c = ' ' || (0x9 ≤ c.toNat && c.toNat ≤ 0xd)

/-- A text in its plain form, without the blanks around it. -/
def plainNumber (text : List Char) : List Char :=
  (((text.map plainChar).dropWhile isNumberBlank).reverse.dropWhile isNumberBlank).reverse

end XoLang.Text

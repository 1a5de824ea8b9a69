/-!
# Encoded texts

Bytes written in base 64, and texts that hold halves of characters. In base 64 four digits stand for
three bytes; characters that are no digits are passed over, and equals signs fill up the last group
of digits and end the text. Characters beyond the first 65536 can be written as two codes from a
range of their own; a code from that range alone is no character, nor do two of them make one where
each is written for itself.
-/

namespace Rulebook.Text

/-! ## Base 64 -/

def base64Digit? (c : Char) : Option Nat :=
  if c.isUpper then some (c.toNat - 65)
  else if c.isLower then some (c.toNat - 71)
  else if c.isDigit then some (c.toNat + 4)
  else if c = '+' then some 62
  else if c = '/' then some 63
  else none

/-- The bytes that a group of two, three or four digits stands for. Of the bits of a group that is
not full, those beyond the last whole byte have no weight. -/
def groupBytes (digits : List Nat) : List UInt8 :=
  let bits := (digits ++ List.replicate (4 - digits.length) 0).foldl (64 * · + ·) 0
  ([bits / 65536, bits / 256 % 256, bits % 256].take (digits.length - 1)).map UInt8.ofNat

/-- Reads what is left of a text, behind the digits of a group that is not full yet and the equals
signs behind these. -/
def decodeGroups (group : List Nat) (fill : Nat) : List Char → Option (List UInt8)
  | [] => if group.isEmpty then some [] else none
  | c :: cs =>
    if c = '=' then
      if group.length < 2 then decodeGroups group fill cs
      else if 4 ≤ group.length + fill + 1 then some (groupBytes group)
      else decodeGroups group (fill + 1) cs
    else
      match base64Digit? c with
      | none => decodeGroups group fill cs
      | some digit =>
        let group := group ++ [digit]
        if group.length = 4 then (decodeGroups [] 0 cs).map (groupBytes group ++ ·)
        else decodeGroups group 0 cs

/-- The bytes that a text stands for; none where the last group of digits is not filled up. -/
def decodeBase64? (cs : List Char) : Option (List UInt8) :=
  decodeGroups [] 0 cs

/-! ## Halves of characters -/

/-- Codes of halves of characters. -/
def isHalf (code : Nat) : Bool :=
  0xD800 ≤ code && code < 0xE000

/-- The character that is shown in place of a half. -/
def replacement : Char := '\ufffd'

/-- A text with halves of characters: the text with replacements for them, and the halves by their
places in it. -/
structure HalfText where
  text : String
  halves : List (Nat × Nat)
deriving DecidableEq

namespace HalfText

def parts (half : HalfText) : List (Char × Option Nat) :=
  half.text.toList.zipIdx.map fun (c, place) => (c, half.halves.lookup place)

end HalfText

end Rulebook.Text

/-!
# Octets in base sixty-four

Four digits write three octets. The last group may be short: two digits write one octet and
three write two, and equals signs fill it up. Whatever is no digit is passed over, and nothing
is read behind a group that was filled up.
-/

namespace EditGate.Text.Base64

/-- The digit that a character stands for. -/
def digit? (char : Char) : Option Nat :=
  if char.isUpper then some (char.toNat - 'A'.toNat)
  else if char.isLower then some (char.toNat - 'a'.toNat + 26)
  else if char.isDigit then some (char.toNat - '0'.toNat + 52)
  else if char = '+' then some 62
  else if char = '/' then some 63
  else none

/-- The octets that a group of digits writes. Bits that fill no octet are dropped. -/
def octets : List Nat → List UInt8
  | first :: second :: rest =>
      (first * 4 + second / 16).toUInt8 ::
        match rest with
        | [] => []
        | third :: rest =>
            (second % 16 * 16 + third / 4).toUInt8 ::
              rest.map fun fourth => (third % 4 * 64 + fourth).toUInt8
  | _ => []

/-- Reads on, where `held` are the digits of the group so far and `fill` counts the equals signs
behind them. A group of one digit cannot be filled up. -/
def decodeFrom (held : List Nat) (fill : Nat) : List Char → Option (List UInt8)
  | [] => if held.isEmpty then some [] else none
  | char :: rest =>
      if char = '=' then
        if held.length < 2 then decodeFrom held fill rest
        else if held.length + fill < 3 then decodeFrom held (fill + 1) rest
        else some (octets held)
      else match digit? char with
        | none => decodeFrom held fill rest
        | some digit =>
            if held.length < 3 then decodeFrom (held ++ [digit]) 0 rest
            else (decodeFrom [] 0 rest).map (octets (held ++ [digit]) ++ ·)

/-- The octets that a text writes, unless its last group is neither whole nor filled up. -/
def decode? (chars : List Char) : Option (List UInt8) :=
  decodeFrom [] 0 chars

end EditGate.Text.Base64

/-!
# UTF-8

Writing and strict reading of UTF-8. Reading refuses overlong forms, surrogates
and code points beyond the last one, and says where the first broken sequence
stands: the broken sequence is the longest run of octets that could still have
begun a character.
-/

namespace EditGate.Utf8

/-- Why a sequence of octets is no character. -/
inductive Reason where
  /-- No character starts with this octet. -/
  | startByte
  /-- The octet after the run cannot continue the character. -/
  | continuationByte
  /-- The octets end inside a character. -/
  | endOfData
deriving DecidableEq, Repr

/-- The wording of a reason. -/
def Reason.message : Reason → String
  | startByte => "invalid start byte"
  | continuationByte => "invalid continuation byte"
  | endOfData => "unexpected end of data"

/-- The first broken sequence: its place, its octets and why it is broken. -/
structure Fault where
  position : Nat
  octets : List UInt8
  reason : Reason
deriving DecidableEq, Repr

private def hexDigitOf (value : Nat) : Char :=
  (Nat.toDigits 16 value).headD '0'

/-- A broken sequence of one octet is shown by its value, a longer one by its range. -/
def Fault.message (fault : Fault) : String :=
  let place := match fault.octets with
    | [octet] =>
        "byte 0x" ++ String.ofList [hexDigitOf (octet.toNat / 16), hexDigitOf (octet.toNat % 16)] ++
          " in position " ++ toString fault.position
    | octets =>
        "bytes in position " ++ toString fault.position ++ "-" ++
          toString (fault.position + octets.length - 1)
  "'utf-8' codec can't decode " ++ place ++ ": " ++ fault.reason.message

/-- The octets of one character. -/
def encodeChar (char : Char) : List UInt8 :=
  let code := char.toNat
  if code < 0x80 then [code.toUInt8]
  else if code < 0x800 then
    [(0xc0 + code / 0x40).toUInt8, (0x80 + code % 0x40).toUInt8]
  else if code < 0x10000 then
    [(0xe0 + code / 0x1000).toUInt8, (0x80 + code / 0x40 % 0x40).toUInt8,
      (0x80 + code % 0x40).toUInt8]
  else
    [(0xf0 + code / 0x40000).toUInt8, (0x80 + code / 0x1000 % 0x40).toUInt8,
      (0x80 + code / 0x40 % 0x40).toUInt8, (0x80 + code % 0x40).toUInt8]

/-- The octets of a text. -/
def encode (chars : List Char) : List UInt8 :=
  chars.flatMap encodeChar

/-- What a leading octet promises: the bits it brings, how many octets follow, and
the range that the first of them must lie in. -/
structure Lead where
  bits : Nat
  following : Nat
  low : Nat
  high : Nat

/-- The leading octets of characters outside ASCII. The ranges keep out overlong
forms, surrogates and code points beyond the last one. -/
def lead? (octet : UInt8) : Option Lead :=
  let value := octet.toNat
  if 0xc2 ≤ value ∧ value ≤ 0xdf then some ⟨value - 0xc0, 1, 0x80, 0xbf⟩
  else if value = 0xe0 then some ⟨0, 2, 0xa0, 0xbf⟩
  else if value = 0xed then some ⟨0xd, 2, 0x80, 0x9f⟩
  else if 0xe1 ≤ value ∧ value ≤ 0xef then some ⟨value - 0xe0, 2, 0x80, 0xbf⟩
  else if value = 0xf0 then some ⟨0, 3, 0x90, 0xbf⟩
  else if 0xf1 ≤ value ∧ value ≤ 0xf3 then some ⟨value - 0xf0, 3, 0x80, 0xbf⟩
  else if value = 0xf4 then some ⟨4, 3, 0x80, 0x8f⟩
  else none

/-- Reads the octets that continue a character. The result is the code point and
the number of octets taken, or the number of octets that fitted and the reason. -/
def continuation (bits : Nat) : (following low high : Nat) → List UInt8 →
    Except (Nat × Reason) Nat
  | 0, _, _, _ => .ok bits
  | _ + 1, _, _, [] => .error (0, .endOfData)
  | following + 1, low, high, octet :: rest =>
      if low ≤ octet.toNat ∧ octet.toNat ≤ high then
        match continuation (bits * 0x40 + octet.toNat % 0x40) following 0x80 0xbf rest with
        | .ok code => .ok code
        | .error (fitting, reason) => .error (fitting + 1, reason)
      else .error (0, .continuationByte)

/-- Reads the octets from `position` on. -/
def decodeFrom (position : Nat) (octets : List UInt8) : Except Fault (List Char) :=
  match octets with
  | [] => .ok []
  | octet :: rest =>
      if octet.toNat < 0x80 then
        (decodeFrom (position + 1) rest).map (Char.ofNat octet.toNat :: ·)
      else match lead? octet with
        | none => .error ⟨position, [octet], .startByte⟩
        | some lead =>
            match continuation lead.bits lead.following lead.low lead.high rest with
            | .ok code =>
                (decodeFrom (position + 1 + lead.following) (rest.drop lead.following)).map
                  (Char.ofNat code :: ·)
            | .error (fitting, reason) => .error ⟨position, octet :: rest.take fitting, reason⟩
termination_by octets.length
decreasing_by
  · simp
  · simp only [List.length_drop, List.length_cons]
    omega

/-- The text that the octets write, or the first broken sequence. -/
def decode (octets : List UInt8) : Except Fault (List Char) :=
  decodeFrom 0 octets

/-- The octets of the byte order mark. -/
def byteOrderMark : List UInt8 := [0xef, 0xbb, 0xbf]

/-- Reads a text of which one leading byte order mark is not part. A mark that
breaks off at the end of the octets is no text either. -/
def decodeUnmarked (octets : List UInt8) : Except Fault (List Char) :=
  if octets.isPrefixOf byteOrderMark then .ok []
  else decode (if byteOrderMark.isPrefixOf octets then octets.drop 3 else octets)

/-- Turns each carriage return, alone or before a line feed, into one line feed. -/
def normalizeBreaks : List Char → List Char
  | [] => []
  | '\r' :: '\n' :: rest => '\n' :: normalizeBreaks rest
  | char :: rest => (if char = '\r' then '\n' else char) :: normalizeBreaks rest

end EditGate.Utf8

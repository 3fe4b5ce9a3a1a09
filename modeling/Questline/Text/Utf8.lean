import Questline.Number.Decimal
import Questline.Number.Hexadecimal

/-!
# UTF-8

Files hold bytes.  A text is encoded in UTF-8; bytes that are no UTF-8 are refused
at the first one that cannot be read, together with those that belong to it.

* `Utf8.encode`: the bytes of a text.
* `Utf8.decode`: the text of bytes, or where and why they are refused.
* `Utf8.DecodeFault.message`: the refusal in words.
-/

namespace Questline.Utf8

/-! ## Encoding -/

/-- The bytes of a character. -/
def encodeChar (c : Char) : List UInt8 :=
  let n := c.toNat
  if n < 0x80 then [n.toUInt8]
  else if n < 0x800 then [(0xC0 + n / 0x40).toUInt8, (0x80 + n % 0x40).toUInt8]
  else if n < 0x10000 then
    [(0xE0 + n / 0x1000).toUInt8, (0x80 + n / 0x40 % 0x40).toUInt8, (0x80 + n % 0x40).toUInt8]
  else
    [(0xF0 + n / 0x40000).toUInt8, (0x80 + n / 0x1000 % 0x40).toUInt8,
      (0x80 + n / 0x40 % 0x40).toUInt8, (0x80 + n % 0x40).toUInt8]

/-- The bytes of a text. -/
def encode (cs : List Char) : List UInt8 := cs.flatMap encodeChar

/-! ## Decoding -/

/-- Why bytes are no UTF-8. -/
inductive Refusal where
  | startByte
  | continuationByte
  | endOfData
  deriving DecidableEq

/-- The reason in words. -/
def Refusal.message : Refusal → String
  | .startByte => "invalid start byte"
  | .continuationByte => "invalid continuation byte"
  | .endOfData => "unexpected end of data"

/-- Refused bytes: the first of them, its place, and how many they are. -/
structure DecodeFault where
  refusal : Refusal
  byte : UInt8
  start : Nat
  count : Nat
  deriving DecidableEq

/-- The refusal in words. -/
def DecodeFault.message (f : DecodeFault) : String :=
  let place :=
    if f.count = 1 then
      "byte 0x" ++ String.ofList (hexDigits 2 f.byte.toNat) ++ " in position " ++ natText f.start
    else "bytes in position " ++ natText f.start ++ "-" ++ natText (f.start + f.count - 1)
  "'utf-8' codec can't decode " ++ place ++ ": " ++ f.refusal.message

/-- Whether a byte continues a character. -/
def isContinuation (b : UInt8) : Bool := 0x80 ≤ b.toNat && b.toNat < 0xC0

/-- Whether `b` may follow the first byte `a` of a character of three or four bytes:
it continues the character, and the character is no surrogate, not past the last
one, and not too small for its length. -/
def mayFollow (a b : UInt8) : Bool :=
  isContinuation b &&
    !(a.toNat == 0xE0 && b.toNat < 0xA0) && !(a.toNat == 0xED && 0xA0 ≤ b.toNat) &&
    !(a.toNat == 0xF0 && b.toNat < 0x90) && !(a.toNat == 0xF4 && 0x90 ≤ b.toNat)

/-- The six bits that a continuation byte carries. -/
def tailBits (b : UInt8) : Nat := b.toNat % 0x40

/-- What the bytes begin with: a character and the number of its bytes, or a
refusal and the number of refused bytes. -/
def head (a : UInt8) (rest : List UInt8) : Except (Refusal × Nat) (Char × Nat) :=
  if a.toNat < 0x80 then .ok (Char.ofNat a.toNat, 1)
  else if a.toNat < 0xC2 then .error (.startByte, 1)
  else if a.toNat < 0xE0 then
    match rest with
    | [] => .error (.endOfData, 1)
    | b :: _ =>
      if isContinuation b then .ok (Char.ofNat (a.toNat % 0x20 * 0x40 + tailBits b), 2)
      else .error (.continuationByte, 1)
  else if a.toNat < 0xF0 then
    match rest with
    | [] => .error (.endOfData, 1)
    | b :: rest =>
      if mayFollow a b then
        match rest with
        | [] => .error (.endOfData, 2)
        | c :: _ =>
          if isContinuation c then
            .ok (Char.ofNat ((a.toNat % 0x10 * 0x40 + tailBits b) * 0x40 + tailBits c), 3)
          else .error (.continuationByte, 2)
      else .error (.continuationByte, 1)
  else if a.toNat < 0xF5 then
    match rest with
    | [] => .error (.endOfData, 1)
    | b :: rest =>
      if mayFollow a b then
        match rest with
        | [] => .error (.endOfData, 2)
        | c :: rest =>
          if isContinuation c then
            match rest with
            | [] => .error (.endOfData, 3)
            | d :: _ =>
              if isContinuation d then
                .ok (Char.ofNat (((a.toNat % 8 * 0x40 + tailBits b) * 0x40 + tailBits c) * 0x40 +
                  tailBits d), 4)
              else .error (.continuationByte, 3)
          else .error (.continuationByte, 2)
      else .error (.continuationByte, 1)
  else .error (.startByte, 1)

/-- Decode from byte number `start` on, skipping the first `skip` bytes, which belong
to the character before. -/
def decodeFrom : (start skip : Nat) → List UInt8 → Except DecodeFault (List Char)
  | _, _, [] => .ok []
  | start, skip + 1, _ :: rest => decodeFrom (start + 1) skip rest
  | start, 0, a :: rest =>
    match head a rest with
    | .error (refusal, count) => .error ⟨refusal, a, start, count⟩
    | .ok (c, count) => (decodeFrom (start + 1) (count - 1) rest).map (c :: ·)

/-- The text of bytes. -/
def decode (bytes : List UInt8) : Except DecodeFault (List Char) := decodeFrom 0 0 bytes

end Questline.Utf8

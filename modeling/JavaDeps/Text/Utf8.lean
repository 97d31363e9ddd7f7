import JavaDeps.Text.Basic

/-!
# Decoding UTF-8

Strict decoding of a byte sequence. The first byte that cannot be part of a character ends the
decoding, and the report names the place and the reason.

The file defines:
- `DecodeError`, the place of the first fault and its reason;
- `decodeUtf8`, the decoder;
- `readText`, which decodes and then gives every line the same end.
-/

namespace JavaDeps.Text

/-- Why a byte sequence is not UTF-8. -/
inductive DecodeReason where
  | invalidStart
  | invalidContinuation
  | unexpectedEnd
  deriving DecidableEq, Repr

/-- The first fault of a byte sequence: its bytes, where they stand and what is wrong. -/
structure DecodeError where
  bytes : List Nat
  position : Nat
  reason : DecodeReason
  deriving DecidableEq, Repr

def DecodeReason.message : DecodeReason → String
  | .invalidStart => "invalid start byte"
  | .invalidContinuation => "invalid continuation byte"
  | .unexpectedEnd => "unexpected end of data"

def DecodeError.message (e : DecodeError) : String :=
  let place := match e.bytes with
    | [b] => "byte 0x" ++ String.ofList (hex 2 b) ++ " in position " ++ ofNat e.position
    | bs => "bytes in position " ++ ofNat e.position ++ "-" ++ ofNat (e.position + bs.length - 1)
  "'utf-8' codec can't decode " ++ place ++ ": " ++ e.reason.message

/-- What a first byte announces: the number of following bytes, the bounds of the second byte and
the bits that the first byte contributes. -/
def leadByte (b : Nat) : Option (Nat × Nat × Nat × Nat) :=
  if b < 0x80 then some (0, 0x80, 0xBF, b)
  else if b < 0xC2 then none
  else if b < 0xE0 then some (1, 0x80, 0xBF, b - 0xC0)
  else if b == 0xE0 then some (2, 0xA0, 0xBF, 0)
  else if b == 0xED then some (2, 0x80, 0x9F, 0xD)
  else if b < 0xF0 then some (2, 0x80, 0xBF, b - 0xE0)
  else if b == 0xF0 then some (3, 0x90, 0xBF, 0)
  else if b < 0xF4 then some (3, 0x80, 0xBF, b - 0xF0)
  else if b == 0xF4 then some (3, 0x80, 0x8F, 4)
  else none

/-- Decodes byte by byte. `seen` holds the bytes of the unfinished character in reverse, `owed`
the number of bytes it still needs, `lo` and `hi` the bounds of the next one, `code` its bits. -/
def decodeFrom (pos : Nat) (seen : List Nat) (owed lo hi code : Nat) (done : List Char) :
    List Nat → Except DecodeError (List Char)
  | [] =>
    if owed == 0 then .ok done.reverse
    else .error ⟨seen.reverse, pos - seen.length, .unexpectedEnd⟩
  | b :: rest =>
    if owed == 0 then
      match leadByte b with
      | none => .error ⟨[b], pos, .invalidStart⟩
      | some (0, _, _, bits) => decodeFrom (pos + 1) [] 0 0x80 0xBF 0 (Char.ofNat bits :: done) rest
      | some (n + 1, l, h, bits) => decodeFrom (pos + 1) [b] (n + 1) l h bits done rest
    else if lo ≤ b && b ≤ hi then
      let code := code * 64 + (b - 0x80)
      if owed == 1 then decodeFrom (pos + 1) [] 0 0x80 0xBF 0 (Char.ofNat code :: done) rest
      else decodeFrom (pos + 1) (b :: seen) (owed - 1) 0x80 0xBF code done rest
    else .error ⟨seen.reverse, pos - seen.length, .invalidContinuation⟩

def decodeUtf8 (bytes : List Nat) : Except DecodeError (List Char) :=
  decodeFrom 0 [] 0 0x80 0xBF 0 [] bytes

/-- The text of a file: its bytes decoded, with uniform line ends. -/
def readText (bytes : List Nat) : Except DecodeError (List Char) :=
  (decodeUtf8 bytes).map normalizeNewlines

end JavaDeps.Text

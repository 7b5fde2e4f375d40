/-
# UTF-8

A file holds bytes and a program is a text, so the bytes are decoded first.  The decoder
takes one byte at a time.  Between two characters it owes nothing; inside a character it
remembers how many bytes are still owed, which values the next one may have, the bits read
so far and the bytes they came from.  Only the first owed byte has a narrower range than
`80` to `BF`: that is what excludes overlong forms, surrogates and values above `10FFFF`.

A byte string that is not UTF-8 has a first fault: the longest run of bytes that could still
have become a character, together with what went wrong after it.
-/
import Varscript.Text.Quoted

namespace Varscript.Text.Utf8

/-- What is wrong with a byte string at its first fault. -/
inductive Reason where
  /-- No character starts with this byte. -/
  | startByte
  /-- The byte after the faulty run cannot continue the character. -/
  | continuation
  /-- The bytes end inside a character. -/
  | ended
deriving DecidableEq, Repr

/-- The first fault of a byte string. -/
structure Fault where
  /-- The offset of the faulty run. -/
  position : Nat
  /-- The faulty run: one byte or more. -/
  bytes : List UInt8
  /-- What is wrong. -/
  reason : Reason
deriving DecidableEq, Repr

/-- The words for a reason. -/
def Reason.text : Reason → String
  | .startByte => "invalid start byte"
  | .continuation => "invalid continuation byte"
  | .ended => "unexpected end of data"

/-- The message for a fault: a run of one byte is shown, a longer one is located only. -/
def Fault.message (f : Fault) : String :=
  let run := match f.bytes with
    | [b] => "byte 0x" ++ String.ofList (hexDigits 2 b.toNat) ++ " in position "
        ++ toString f.position
    | bs => "bytes in position " ++ toString f.position ++ "-"
        ++ toString (f.position + bs.length - 1)
  "'utf-8' codec can't decode " ++ run ++ ": " ++ f.reason.text

/-- A character whose first bytes have been read. -/
structure Pending where
  /-- How many more bytes it needs, less one. -/
  owed : Nat
  /-- The least value of its next byte. -/
  low : Nat
  /-- The greatest value of its next byte. -/
  high : Nat
  /-- The bits read so far. -/
  value : Nat
  /-- The bytes read so far, the last one first. -/
  taken : List UInt8
deriving DecidableEq, Repr

/-- What a byte between two characters is. -/
inductive Lead where
  /-- A character of its own. -/
  | whole (c : Char)
  /-- The first byte of a longer character. -/
  | opens (p : Pending)
  /-- No start of a character. -/
  | bad
deriving DecidableEq, Repr

/-- The reading of a byte between two characters. -/
def lead (byte : UInt8) : Lead :=
  let b := byte.toNat
  if b < 0x80 then .whole (Char.ofNat b)
  else if b < 0xC2 then .bad
  else if b < 0xE0 then .opens ⟨0, 0x80, 0xBF, b - 0xC0, [byte]⟩
  else if b = 0xE0 then .opens ⟨1, 0xA0, 0xBF, 0, [byte]⟩
  else if b = 0xED then .opens ⟨1, 0x80, 0x9F, 0xD, [byte]⟩
  else if b < 0xF0 then .opens ⟨1, 0x80, 0xBF, b - 0xE0, [byte]⟩
  else if b = 0xF0 then .opens ⟨2, 0x90, 0xBF, 0, [byte]⟩
  else if b < 0xF4 then .opens ⟨2, 0x80, 0xBF, b - 0xF0, [byte]⟩
  else if b = 0xF4 then .opens ⟨2, 0x80, 0x8F, 4, [byte]⟩
  else .bad

/-- Decoding from offset `position`, inside the character `inside` if there is one. -/
def decodeFrom (position : Nat) (inside : Option Pending) :
    List UInt8 → Except Fault (List Char)
  | [] => match inside with
    | none => .ok []
    | some p => .error ⟨position - p.taken.length, p.taken.reverse, .ended⟩
  | byte :: rest => match inside with
    | none => match lead byte with
      | .whole c => (c :: ·) <$> decodeFrom (position + 1) none rest
      | .opens p => decodeFrom (position + 1) (some p) rest
      | .bad => .error ⟨position, [byte], .startByte⟩
    | some p =>
      if byte.toNat < p.low ∨ p.high < byte.toNat then
        .error ⟨position - p.taken.length, p.taken.reverse, .continuation⟩
      else
        let value := p.value * 64 + (byte.toNat - 0x80)
        match p.owed with
        | 0 => (Char.ofNat value :: ·) <$> decodeFrom (position + 1) none rest
        | owed + 1 =>
          decodeFrom (position + 1) (some ⟨owed, 0x80, 0xBF, value, byte :: p.taken⟩) rest

/-- The text that the bytes spell, or their first fault. -/
def decode (bytes : List UInt8) : Except Fault (List Char) :=
  decodeFrom 0 none bytes

/-- The bytes that spell a text. -/
def encode (s : List Char) : List UInt8 :=
  s.flatMap String.utf8EncodeChar

end Varscript.Text.Utf8

/-!
# Bytes of texts

The bytes of a text in UTF-8, and the text that bytes stand for when some of them may not
be UTF-8: each longest start of a character that is broken off becomes one replacement
character.
-/

namespace Workflow.Text

def bytes (s : String) : List UInt8 := s.toList.flatMap String.utf8EncodeChar

/-- The character that stands for bytes that are not a character. -/
def replacement : Char := '\ufffd'

/-- A character of which some bytes are read: its bits so far, how many bytes are missing,
and the bounds of the next one. -/
structure Unfinished where
  bits : Nat
  missing : Nat
  least : Nat
  greatest : Nat

/-- What the first byte of a character says: a character, or the start of a longer one. -/
def firstByte (b : UInt8) : List Char × Option Unfinished :=
  let n := b.toNat
  if n < 0x80 then ([Char.ofNat n], none)
  else if n < 0xc2 then ([replacement], none)
  else if n < 0xe0 then ([], some ⟨n - 0xc0, 1, 0x80, 0xbf⟩)
  else if n < 0xf0 then
    ([], some ⟨n - 0xe0, 2, if n = 0xe0 then 0xa0 else 0x80, if n = 0xed then 0x9f else 0xbf⟩)
  else if n < 0xf5 then
    ([], some ⟨n - 0xf0, 3, if n = 0xf0 then 0x90 else 0x80, if n = 0xf4 then 0x8f else 0xbf⟩)
  else ([replacement], none)

def decodeFrom : Option Unfinished → List UInt8 → List Char
  | none, [] => []
  | some _, [] => [replacement]
  | none, b :: rest =>
    let (done, pending) := firstByte b
    done ++ decodeFrom pending rest
  | some u, b :: rest =>
    if u.least ≤ b.toNat && b.toNat ≤ u.greatest then
      let bits := u.bits * 64 + (b.toNat - 0x80)
      if u.missing ≤ 1 then Char.ofNat bits :: decodeFrom none rest
      else decodeFrom (some ⟨bits, u.missing - 1, 0x80, 0xbf⟩) rest
    else
      let (done, pending) := firstByte b
      replacement :: (done ++ decodeFrom pending rest)

/-- The text of bytes, with replacement characters for what is not UTF-8. -/
def decodeLossy (bs : List UInt8) : String := String.ofList (decodeFrom none bs)

/-- The text of bytes if they are UTF-8. -/
def decode? (bs : List UInt8) : Option String := String.fromUTF8? ⟨bs.toArray⟩

end Workflow.Text

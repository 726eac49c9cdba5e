import ExprLang.Text.Hex

/-!
# Strict decoding of UTF-8

Bytes are read one at a time. The first byte of a sequence fixes how many continuation
bytes follow and, for four of the lead bytes, a narrower range for the first of them, so
that overlong forms, surrogates and code points above `U+10FFFF` are refused at the
earliest byte that shows them. A refusal names the bytes read so far of the sequence.
-/

namespace ExprLang.Text.Utf8

/-- Why a byte sequence is no text. -/
inductive Problem where
  /-- No sequence begins with this byte. -/
  | startByte
  /-- A byte that cannot continue the sequence. -/
  | continuationByte
  /-- The bytes end inside a sequence. -/
  | endOfData
deriving DecidableEq, Repr

/-- The wording of a problem. -/
def Problem.message : Problem → String
  | .startByte => "invalid start byte"
  | .continuationByte => "invalid continuation byte"
  | .endOfData => "unexpected end of data"

/-- A refused byte sequence. -/
structure Fault where
  /-- The first byte of the sequence. -/
  lead : UInt8
  /-- The offset of the first byte. -/
  first : Nat
  /-- The offset of the last byte that counts to the fault. -/
  last : Nat
  /-- What is wrong with it. -/
  problem : Problem
deriving DecidableEq, Repr

/-- One byte is shown with its value, several by their offsets. -/
def Fault.message (fault : Fault) : String :=
  let place :=
    if fault.first = fault.last then
      "byte 0x" ++ String.ofList (hex 2 fault.lead.toNat) ++ " in position " ++ toString fault.first
    else "bytes in position " ++ toString fault.first ++ "-" ++ toString fault.last
  "'utf-8' codec can't decode " ++ place ++ ": " ++ fault.problem.message

/-- A sequence of which at least one continuation byte is still to come. -/
structure Sequence where
  /-- The first byte. -/
  lead : UInt8
  /-- The offset of the first byte. -/
  start : Nat
  /-- Continuation bytes to come after the next one. -/
  furtherBytes : Nat
  /-- The bits read so far. -/
  bits : Nat
  /-- The lowest byte that may come next. -/
  lowest : Nat := 0x80
  /-- The highest byte that may come next. -/
  highest : Nat := 0xbf
deriving DecidableEq, Repr

/-- The sequence that a byte above the ASCII range begins, if it begins one. -/
def Sequence.ofLead? (lead : UInt8) (start : Nat) : Option Sequence :=
  let value := lead.toNat
  if 0xc2 ≤ value && value ≤ 0xdf then
    some { lead, start, furtherBytes := 0, bits := value - 0xc0 }
  else if value = 0xe0 then some { lead, start, furtherBytes := 1, bits := 0, lowest := 0xa0 }
  else if value = 0xed then some { lead, start, furtherBytes := 1, bits := 0xd, highest := 0x9f }
  else if 0xe1 ≤ value && value ≤ 0xef then
    some { lead, start, furtherBytes := 1, bits := value - 0xe0 }
  else if value = 0xf0 then some { lead, start, furtherBytes := 2, bits := 0, lowest := 0x90 }
  else if value = 0xf4 then some { lead, start, furtherBytes := 2, bits := 4, highest := 0x8f }
  else if 0xf1 ≤ value && value ≤ 0xf3 then
    some { lead, start, furtherBytes := 2, bits := value - 0xf0 }
  else none

/-- Decode the bytes that start at an offset, in the middle of a sequence or between two. -/
def decodeFrom : Option Sequence → Nat → List UInt8 → Except Fault (List Char)
  | none, _, [] => .ok []
  | some sequence, offset, [] =>
    .error ⟨sequence.lead, sequence.start, offset - 1, .endOfData⟩
  | none, offset, byte :: rest =>
    if byte < 0x80 then
      return Char.ofNat byte.toNat :: (← decodeFrom none (offset + 1) rest)
    else
      match Sequence.ofLead? byte offset with
      | none => .error ⟨byte, offset, offset, .startByte⟩
      | some sequence => decodeFrom (some sequence) (offset + 1) rest
  | some sequence, offset, byte :: rest =>
    if sequence.lowest ≤ byte.toNat && byte.toNat ≤ sequence.highest then
      let bits := 64 * sequence.bits + (byte.toNat - 0x80)
      match sequence.furtherBytes with
      | 0 => return Char.ofNat bits :: (← decodeFrom none (offset + 1) rest)
      | further + 1 =>
        let longer : Sequence :=
          { lead := sequence.lead, start := sequence.start, furtherBytes := further, bits }
        decodeFrom (some longer) (offset + 1) rest
    else .error ⟨sequence.lead, sequence.start, offset - 1, .continuationByte⟩

/-- The text that the bytes encode, or the first fault. -/
def decode (bytes : List UInt8) : Except Fault (List Char) := decodeFrom none 0 bytes

end ExprLang.Text.Utf8

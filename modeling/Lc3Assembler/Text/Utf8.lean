import Lc3Assembler.Text.Numeral

/-!
# Decoding UTF-8 strictly

Source files are UTF-8.  A file is decoded block by block, and the characters
of a block are handed over once all of it is decoded.  A character that the end
of a block cuts off is carried over to the next one.  A fault names the longest
well-formed start of a character as the faulty bytes, and its positions count
from the first byte that was decoded together with it.
-/

namespace Lc3Assembler.Text.Utf8

/-- What is wrong with a byte sequence. -/
inductive Reason where
  | invalidStart
  | invalidContinuation
  | unexpectedEnd
  deriving DecidableEq, Repr

/-- A faulty byte sequence: its position, its first byte and its length. -/
structure Fault where
  position : Nat
  lead : UInt8
  count : Nat
  reason : Reason
  deriving DecidableEq, Repr

/-- The class of a character's first byte, with the range of its second. -/
inductive Lead where
  | single
  | pair
  | triple (low high : UInt8)
  | quadruple (low high : UInt8)
  | invalid
  deriving DecidableEq, Repr

/-- First bytes that could only start an overlong form, a surrogate or a code
point past the last plane are narrowed by the range of the second byte. -/
def Lead.ofByte (byte : UInt8) : Lead :=
  if byte < 0x80 then .single
  else if byte < 0xC2 then .invalid
  else if byte < 0xE0 then .pair
  else if byte = 0xE0 then .triple 0xA0 0xBF
  else if byte = 0xED then .triple 0x80 0x9F
  else if byte < 0xF0 then .triple 0x80 0xBF
  else if byte = 0xF0 then .quadruple 0x90 0xBF
  else if byte = 0xF4 then .quadruple 0x80 0x8F
  else if byte < 0xF4 then .quadruple 0x80 0xBF
  else .invalid

def isContinuation (byte : UInt8) : Bool :=
  0x80 ≤ byte && byte ≤ 0xBF

/-- The character whose first byte carries `payload` bits above the six bits
of each continuation byte. -/
def joinBits (payload : Nat) (continuations : List UInt8) : Char :=
  Char.ofNat (continuations.foldl (fun value byte => value * 64 + byte.toNat % 64) payload)

/-- How the decoding of some bytes stops: at their end, at a character that
their end cuts off, or at a fault. -/
inductive Stop where
  | complete
  | cutOff (rest : List UInt8)
  | faulty (fault : Fault)
  deriving DecidableEq, Repr

/-- The characters up to where the decoding stops. -/
structure Decoded where
  text : List Char
  stop : Stop
  deriving DecidableEq, Repr

/-- One more character in front. -/
def Decoded.cons (c : Char) (decoded : Decoded) : Decoded :=
  { decoded with text := c :: decoded.text }

/-- A sequence that the end of the data cuts off. -/
def cutOff (rest : List UInt8) : Decoded :=
  { text := [], stop := .cutOff rest }

/-- A sequence whose next byte does not continue it. -/
def broken (position : Nat) (lead : UInt8) (count : Nat) : Decoded :=
  { text := [], stop := .faulty { position, lead, count, reason := .invalidContinuation } }

/-- Two bytes that only a surrogate starts with.  They are a fault, but one that
is left open until the third byte is there. -/
def startsSurrogate (first second : UInt8) : Bool :=
  first = 0xED && 0xA0 ≤ second && second ≤ 0xBF

/-- Decode bytes of which the first stands at `position`. -/
def decodeFrom (position : Nat) : List UInt8 → Decoded
  | [] => { text := [], stop := .complete }
  | first :: rest =>
      match Lead.ofByte first with
      | .single => .cons (Char.ofNat first.toNat) (decodeFrom (position + 1) rest)
      | .pair =>
          match rest with
          | [] => cutOff [first]
          | second :: rest =>
              if isContinuation second then
                .cons (joinBits (first.toNat % 32) [second]) (decodeFrom (position + 2) rest)
              else broken position first 1
      | .triple low high =>
          match rest with
          | [] => cutOff [first]
          | [second] =>
              if low ≤ second && second ≤ high || startsSurrogate first second then
                cutOff [first, second]
              else broken position first 1
          | second :: third :: rest =>
              if low ≤ second && second ≤ high then
                if isContinuation third then
                  .cons (joinBits (first.toNat % 16) [second, third])
                    (decodeFrom (position + 3) rest)
                else broken position first 2
              else broken position first 1
      | .quadruple low high =>
          match rest with
          | [] => cutOff [first]
          | [second] =>
              if low ≤ second && second ≤ high then cutOff [first, second]
              else broken position first 1
          | [second, third] =>
              if low ≤ second && second ≤ high then
                if isContinuation third then cutOff [first, second, third]
                else broken position first 2
              else broken position first 1
          | second :: third :: fourth :: rest =>
              if low ≤ second && second ≤ high then
                if isContinuation third then
                  if isContinuation fourth then
                    .cons (joinBits (first.toNat % 8) [second, third, fourth])
                      (decodeFrom (position + 4) rest)
                  else broken position first 3
                else broken position first 2
              else broken position first 1
      | .invalid =>
          { text := []
            stop := .faulty { position, lead := first, count := 1, reason := .invalidStart } }

/-- The fault of a cut-off sequence that nothing follows any more. -/
def endFault? : List UInt8 → Option Fault
  | [] => none
  | [first, second] =>
      if startsSurrogate first second then
        some { position := 0, lead := first, count := 1, reason := .invalidContinuation }
      else some { position := 0, lead := first, count := 2, reason := .unexpectedEnd }
  | first :: rest =>
      some { position := 0, lead := first, count := rest.length + 1, reason := .unexpectedEnd }

/-- The number of bytes that are decoded together. -/
def blockSize : Nat := 8192

/-- The blocks of some bytes, of which the first takes `room` bytes. -/
def blocksFrom : Nat → List UInt8 → List (List UInt8)
  | _, [] => []
  | room, byte :: rest =>
      if room ≤ 1 then [byte] :: blocksFrom blockSize rest
      else
        match blocksFrom (room - 1) rest with
        | [] => [[byte]]
        | first :: others => (byte :: first) :: others

/-- The characters of a file that are handed over, and the fault that is found
after them. -/
structure Content where
  text : List Char
  fault : Option Fault
  deriving DecidableEq, Repr

/-- Decode blocks one after the other, after some bytes that were carried over.
Nothing of a faulty block is handed over. -/
def decodeBlocks (carried : List UInt8) : List (List UInt8) → Content
  | [] => { text := [], fault := endFault? carried }
  | block :: blocks =>
      let decoded := decodeFrom 0 (carried ++ block)
      match decoded.stop with
      | .faulty fault => { text := [], fault := some fault }
      | .cutOff rest =>
          let others := decodeBlocks rest blocks
          { others with text := decoded.text ++ others.text }
      | .complete =>
          let others := decodeBlocks [] blocks
          { others with text := decoded.text ++ others.text }

def decode (bytes : List UInt8) : Content :=
  decodeBlocks [] (blocksFrom blockSize bytes)

def encodeChar (c : Char) : List UInt8 :=
  let point := c.toNat
  if point < 0x80 then [point.toUInt8]
  else if point < 0x800 then [(0xC0 + point / 64).toUInt8, (0x80 + point % 64).toUInt8]
  else if point < 0x10000 then
    [(0xE0 + point / 4096).toUInt8, (0x80 + point / 64 % 64).toUInt8,
      (0x80 + point % 64).toUInt8]
  else
    [(0xF0 + point / 262144).toUInt8, (0x80 + point / 4096 % 64).toUInt8,
      (0x80 + point / 64 % 64).toUInt8, (0x80 + point % 64).toUInt8]

def encode (text : List Char) : List UInt8 :=
  text.flatMap encodeChar

/-- What a message calls the reason. -/
def Reason.text : Reason → String
  | .invalidStart => "invalid start byte"
  | .invalidContinuation => "invalid continuation byte"
  | .unexpectedEnd => "unexpected end of data"

/-- One faulty byte is shown, several are located by their range. -/
def Fault.message (fault : Fault) : String :=
  let place := decimal fault.position
  let what :=
    if fault.count = 1 then "byte 0x" ++ hexLower 2 fault.lead.toNat ++ " in position " ++ place
    else "bytes in position " ++ place ++ "-" ++ decimal (fault.position + fault.count - 1)
  "'utf-8' codec can't decode " ++ what ++ ": " ++ fault.reason.text

/-- Blocks hold every byte, in order. -/
theorem flatten_blocksFrom (room : Nat) (bytes : List UInt8) :
    (blocksFrom room bytes).flatten = bytes := by
  induction bytes generalizing room with
  | nil => simp [blocksFrom]
  | cons byte rest induction =>
      by_cases last : room ≤ 1
      · simp [blocksFrom, last, induction]
      · have others := induction (room - 1)
        simp only [blocksFrom, last, if_false]
        cases remaining : blocksFrom (room - 1) rest with
        | nil =>
            rw [remaining] at others
            simp only [List.flatten_nil] at others
            simp [← others]
        | cons first blocks =>
            rw [remaining] at others
            simp only [List.flatten_cons] at others
            simp [← others]

@[simp] theorem encode_nil : encode [] = [] := rfl

@[simp] theorem encode_cons (c : Char) (text : List Char) :
    encode (c :: text) = encodeChar c ++ encode text := rfl

end Lc3Assembler.Text.Utf8

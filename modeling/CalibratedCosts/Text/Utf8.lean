import CalibratedCosts.Text.Basic
import CalibratedCosts.Text.Digit

/-! # UTF-8

    Encoding and decoding of text.  Halves of surrogate pairs have no bytes.
    Decoding accepts the well-formed sequences of the standard and nothing
    else, and a refusal names the bytes that cannot be part of a well-formed
    text and why.
-/

namespace CalibratedCosts.Text.Utf8

/-! ## Section 1: encoding -/

/-- The bytes of a string. -/
def encode (s : String) : List UInt8 := s.toList.flatMap String.utf8EncodeChar

/-- A run of halves of surrogate pairs in a text. -/
structure EncodeFault where
  first : Nat
  position : Nat
  count : Nat
  deriving DecidableEq

def EncodeFault.message (f : EncodeFault) : String :=
  let place :=
    if f.count = 1 then
      "character '\\u" ++ String.ofList (hexDigits 4 f.first) ++ s!"' in position {f.position}"
    else s!"characters in position {f.position}-{f.position + f.count - 1}"
  "'utf-8' codec can't encode " ++ place ++ ": surrogates not allowed"

/-- The first run of halves in a text. -/
def firstHalves (t : Text) : EncodeFault :=
  let before := t.codes.takeWhile fun c => !c.isHalf
  let halves := (t.codes.drop before.length).takeWhile Code.isHalf
  ⟨((halves.head?).map Code.number).getD 0, before.length, halves.length⟩

/-- The string that can be encoded in place of a text. -/
def encodable (t : Text) : Except EncodeFault String :=
  match t.string? with
  | some s => .ok s
  | none => .error (firstHalves t)

/-! ## Section 2: refusals -/

/-- Why bytes are no text. -/
inductive Reason where
  | invalidStart
  | invalidContinuation
  | unexpectedEnd
  deriving DecidableEq

/-- A maximal run of bytes that cannot be part of a text. -/
structure Fault where
  first : UInt8
  position : Nat
  count : Nat
  reason : Reason

def Reason.message : Reason → String
  | .invalidStart => "invalid start byte"
  | .invalidContinuation => "invalid continuation byte"
  | .unexpectedEnd => "unexpected end of data"

def Fault.message (f : Fault) : String :=
  let place :=
    if f.count = 1 then
      "byte 0x" ++ String.ofList (hexDigits 2 f.first.toNat) ++ s!" in position {f.position}"
    else s!"bytes in position {f.position}-{f.position + f.count - 1}"
  "'utf-8' codec can't decode " ++ place ++ ": " ++ f.reason.message

/-! ## Section 3: decoding -/

/-- A byte that continues a sequence. -/
def isContinuation (b : UInt8) : Bool := 0x80 ≤ b && b ≤ 0xbf

/-- The second bytes that a first byte allows: no longer form than needed,
    no surrogate, nothing beyond the last code point. -/
def allowsSecond (first second : UInt8) : Bool :=
  if first = 0xe0 then 0xa0 ≤ second && second ≤ 0xbf
  else if first = 0xed then 0x80 ≤ second && second ≤ 0x9f
  else if first = 0xf0 then 0x90 ≤ second && second ≤ 0xbf
  else if first = 0xf4 then 0x80 ≤ second && second ≤ 0x8f
  else isContinuation second

/-- The character of a sequence: the payload of the first byte, then six bits
    of each following byte. -/
def assemble (payload : Nat) (following : List UInt8) : Char :=
  Char.ofNat (following.foldl (fun code b => code * 64 + (b.toNat - 0x80)) payload)

/-- The characters of the bytes that start at `position`. -/
def decodeFrom (position : Nat) : List UInt8 → Except Fault (List Char)
  | [] => .ok []
  | b :: rest =>
    if b < 0x80 then (decodeFrom (position + 1) rest).map (Char.ofNat b.toNat :: ·)
    else if b < 0xc2 || 0xf4 < b then .error ⟨b, position, 1, .invalidStart⟩
    -- The byte starts a sequence of two bytes or more.
    else match rest with
      | [] => .error ⟨b, position, 1, .unexpectedEnd⟩
      | c :: rest =>
        if !allowsSecond b c then .error ⟨b, position, 1, .invalidContinuation⟩
        else if b < 0xe0 then
          (decodeFrom (position + 2) rest).map (assemble (b.toNat - 0xc0) [c] :: ·)
        -- A third byte is due.
        else match rest with
          | [] => .error ⟨b, position, 2, .unexpectedEnd⟩
          | d :: rest =>
            if !isContinuation d then .error ⟨b, position, 2, .invalidContinuation⟩
            else if b < 0xf0 then
              (decodeFrom (position + 3) rest).map (assemble (b.toNat - 0xe0) [c, d] :: ·)
            -- A fourth byte is due.
            else match rest with
              | [] => .error ⟨b, position, 3, .unexpectedEnd⟩
              | e :: rest =>
                if !isContinuation e then .error ⟨b, position, 3, .invalidContinuation⟩
                else
                  (decodeFrom (position + 4) rest).map
                    (assemble (b.toNat - 0xf0) [c, d, e] :: ·)

/-- The text of bytes, or the first run of bytes that is none. -/
def decode (bytes : List UInt8) : Except Fault (List Char) := decodeFrom 0 bytes

end CalibratedCosts.Text.Utf8

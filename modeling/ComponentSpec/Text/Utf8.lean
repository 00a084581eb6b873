/-!
# UTF-8

Bytes are read as UTF-8 text one character at a time. Where they are not UTF-8, the flaw names the
first byte of the sequence that fails and what is wrong with it: its first byte starts no character,
a later byte continues none, or the bytes end too soon.

* `Utf8.decode` — the text, or the flaw;
* `Utf8.encode` — the bytes of a text.
-/

namespace ComponentSpec.Utf8

/-- What is wrong with a sequence of bytes. -/
inductive Reason where
  | start
  | continuation
  | ending
deriving DecidableEq

/-- A failed sequence: the place of its first byte, and its bytes up to the one that fails. -/
structure Flaw where
  reason : Reason
  offset : Nat
  bytes : List UInt8
deriving DecidableEq

def Reason.message : Reason → String
  | .start => "invalid start byte"
  | .continuation => "invalid continuation byte"
  | .ending => "unexpected end of data"

/-- The wording of a flaw. A single byte is shown, several are told by their places. -/
def Flaw.message (flaw : Flaw) : String :=
  let place := match flaw.bytes with
    | [b] =>
      "byte 0x" ++ String.ofList (Nat.toDigits 16 b.toNat) ++ " in position "
        ++ toString flaw.offset
    | bs =>
      "bytes in position " ++ toString flaw.offset ++ "-" ++ toString (flaw.offset + bs.length - 1)
  "'utf-8' codec can't decode " ++ place ++ ": " ++ flaw.reason.message

/-- What the first byte of a character allows: how many bytes follow, the range of the first of
them, and the bits that the first byte gives. -/
def lead? (b : UInt8) : Option (Nat × UInt8 × UInt8 × Nat) :=
  if b ≤ 0x7F then some (0, 0, 0, b.toNat)
  else if 0xC2 ≤ b && b ≤ 0xDF then some (1, 0x80, 0xBF, b.toNat - 0xC0)
  else if b = 0xE0 then some (2, 0xA0, 0xBF, 0)
  else if b = 0xED then some (2, 0x80, 0x9F, 0xD)
  else if 0xE1 ≤ b && b ≤ 0xEF then some (2, 0x80, 0xBF, b.toNat - 0xE0)
  else if b = 0xF0 then some (3, 0x90, 0xBF, 0)
  else if 0xF1 ≤ b && b ≤ 0xF3 then some (3, 0x80, 0xBF, b.toNat - 0xF0)
  else if b = 0xF4 then some (3, 0x80, 0x8F, 4)
  else none

/-- Takes `n` continuation bytes, the first of them from the given range. A failure comes with the
bytes from the failing one on. -/
def tails : Nat → UInt8 → UInt8 → Nat → List UInt8 →
    Except (Reason × List UInt8) (Nat × List UInt8)
  | 0, _, _, code, bs => .ok (code, bs)
  | _ + 1, _, _, _, [] => .error (.ending, [])
  | n + 1, low, high, code, b :: bs =>
    if low ≤ b && b ≤ high then tails n 0x80 0xBF (code * 64 + (b.toNat - 0x80)) bs
    else .error (.continuation, b :: bs)

theorem length_tails {n : Nat} {low high : UInt8} {code : Nat} {bs : List UInt8}
    {code' : Nat} {rest : List UInt8} (h : tails n low high code bs = .ok (code', rest)) :
    rest.length ≤ bs.length := by
  induction n generalizing low high code bs with
  | zero => simp [tails] at h; simp [h.2]
  | succ n ih =>
    cases bs with
    | nil => simp [tails] at h
    | cons b bs =>
      simp only [tails] at h
      split at h
      · have := ih h; simp; omega
      · cases h

/-- Reads the bytes from a place on. -/
def decodeFrom (offset : Nat) : List UInt8 → Except Flaw (List Char)
  | [] => .ok []
  | b :: bs =>
    match lead? b with
    | none => .error ⟨.start, offset, [b]⟩
    | some (n, low, high, code) =>
      match h : tails n low high code bs with
      | .error (reason, rest) =>
        .error ⟨reason, offset, (b :: bs).take (bs.length + 1 - rest.length)⟩
      | .ok (code, rest) =>
        match decodeFrom (offset + 1 + n) rest with
        | .error flaw => .error flaw
        | .ok cs => .ok (Char.ofNat code :: cs)
  termination_by bs => bs.length
  decreasing_by exact Nat.lt_succ_of_le (length_tails h)

/-- **The text that the bytes spell.** -/
def decode (bytes : List UInt8) : Except Flaw String :=
  (decodeFrom 0 bytes).map String.ofList

/-- The bytes of a text. -/
def encode (s : String) : List UInt8 := s.toUTF8.toList

end ComponentSpec.Utf8

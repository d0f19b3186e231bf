import ArchDiagram.Text.Quoted

/-!
Text from bytes in UTF-8. A text that is not in UTF-8 is refused at its first fault, with the bytes
that are at fault: those of a character up to the one that breaks it off.
-/

namespace ArchDiagram.Text

inductive Utf8Reason
  | invalidStart
  | invalidContinuation
  | unexpectedEnd
deriving DecidableEq, Repr

/-- A fault in a text: the first byte, its offset, the number of bytes, and the reason. -/
structure Utf8Fault where
  byte : UInt8
  offset : Nat
  length : Nat
  reason : Utf8Reason
deriving DecidableEq, Repr

def Utf8Reason.message : Utf8Reason → String
  | invalidStart => "invalid start byte"
  | invalidContinuation => "invalid continuation byte"
  | unexpectedEnd => "unexpected end of data"

/-- The wording of a fault. A single byte is shown; of several, only their places. -/
def Utf8Fault.message (fault : Utf8Fault) : String :=
  let place :=
    if fault.length ≤ 1 then
      "byte 0x" ++ String.ofList (hexDigits 2 fault.byte.toNat) ++ " in position "
        ++ toString fault.offset
    else
      "bytes in position " ++ toString fault.offset ++ "-"
        ++ toString (fault.offset + fault.length - 1)
  "'utf-8' codec can't decode " ++ place ++ ": " ++ fault.reason.message

/-- How many bytes follow a first byte, and the range in which the second one lies. The ranges leave
out the longer forms of a character, the surrogates, and what lies behind the last character. -/
def continuation? (byte : UInt8) : Option (Nat × UInt8 × UInt8) :=
  if byte < 0xc2 then none
  else if byte < 0xe0 then some (1, 0x80, 0xbf)
  else if byte = 0xe0 then some (2, 0xa0, 0xbf)
  else if byte = 0xed then some (2, 0x80, 0x9f)
  else if byte < 0xf0 then some (2, 0x80, 0xbf)
  else if byte = 0xf0 then some (3, 0x90, 0xbf)
  else if byte < 0xf4 then some (3, 0x80, 0xbf)
  else if byte = 0xf4 then some (3, 0x80, 0x8f)
  else none

/-- The code behind the bits already read and a number of further bytes, the next of which lies in a
range. A fault is given with the number of bytes that were taken before it. -/
def continueCode (low high : UInt8) : (code taken count : Nat) → List UInt8 →
    Except (Nat × Utf8Reason) (Nat × List UInt8)
  | code, _, 0, rest => .ok (code, rest)
  | _, taken, _ + 1, [] => .error (taken, .unexpectedEnd)
  | code, taken, count + 1, byte :: rest =>
    if low ≤ byte ∧ byte ≤ high then
      continueCode 0x80 0xbf (64 * code + (byte.toNat - 0x80)) (taken + 1) count rest
    else .error (taken, .invalidContinuation)

def leadingBits (byte : UInt8) (count : Nat) : Nat := byte.toNat % Nat.pow 2 (6 - count)

def cutChar (byte : UInt8) (rest : List UInt8) : Except (Nat × Utf8Reason) (Char × List UInt8) :=
  if byte < 0x80 then .ok (Char.ofNat byte.toNat, rest)
  else match continuation? byte with
    | none => .error (1, .invalidStart)
    | some (count, low, high) =>
      (continueCode low high (leadingBits byte count) 1 count rest).map fun (code, rest) =>
        (Char.ofNat code, rest)

theorem length_le_of_continueCode {low high : UInt8} {code taken count : Nat}
    {bytes rest : List UInt8} {result : Nat}
    (cut : continueCode low high code taken count bytes = .ok (result, rest)) :
    rest.length ≤ bytes.length := by
  fun_induction continueCode low high code taken count bytes <;> simp_all
  omega

theorem length_le_of_cutChar {byte : UInt8} {bytes rest : List UInt8} {c : Char}
    (cut : cutChar byte bytes = .ok (c, rest)) : rest.length ≤ bytes.length := by
  unfold cutChar at cut
  split at cut
  · simp_all
  · split at cut
    · simp at cut
    · rename_i count low high _
      cases found : continueCode low high (leadingBits byte count) 1 count bytes with
      | error fault => simp [found, Except.map] at cut
      | ok result =>
        obtain ⟨code, behind⟩ := result
        simp only [found, Except.map, Except.ok.injEq, Prod.mk.injEq] at cut
        rw [← cut.2]
        exact length_le_of_continueCode found

def decodeFrom (offset : Nat) : List UInt8 → Except Utf8Fault (List Char)
  | [] => .ok []
  | byte :: rest =>
    match cut : cutChar byte rest with
    | .error (length, reason) => .error ⟨byte, offset, length, reason⟩
    | .ok (c, behind) =>
      have := length_le_of_cutChar cut
      (decodeFrom (offset + (rest.length + 1 - behind.length)) behind).map (c :: ·)
termination_by bytes => bytes.length

def decode (bytes : List UInt8) : Except Utf8Fault (List Char) := decodeFrom 0 bytes

end ArchDiagram.Text

namespace QtSheet.Text.Utf8

/-!
# UTF-8

The text of a sequence of bytes. A character is one byte below 128, or a lead
byte and the continuation bytes that it asks for. Bytes that are no text are a
fault: where they stand, which bytes they are and what is wrong with them.
-/

/-- What is wrong with some bytes. -/
inductive Defect where
  /-- No character begins with the byte. -/
  | invalidStart
  /-- Another byte than a continuation follows. -/
  | invalidContinuation
  /-- The bytes end within a character. -/
  | unexpectedEnd
  deriving Repr, DecidableEq

/-- How a defect is called in a message. -/
def Defect.label : Defect → String
  | .invalidStart => "invalid start byte"
  | .invalidContinuation => "invalid continuation byte"
  | .unexpectedEnd => "unexpected end of data"

/-- Bytes that are no text. -/
structure Fault where
  /-- The number of bytes before the first of them. -/
  position : Nat
  /-- The lead byte. -/
  lead : UInt8
  /-- The number of continuation bytes that are right. -/
  continuations : Nat
  defect : Defect
  deriving Repr, DecidableEq

/--
The ranges of the continuation bytes that a lead byte asks for; none for a byte
that is no lead.
-/
def continuationRanges? (lead : Nat) : Option (List (Nat × Nat)) :=
  let any := (0x80, 0xBF)
  if lead < 0x80 then some []
  else if lead < 0xC2 then none
  else if lead < 0xE0 then some [any]
  else if lead = 0xE0 then some [(0xA0, 0xBF), any]
  else if lead = 0xED then some [(0x80, 0x9F), any]
  else if lead < 0xF0 then some [any, any]
  else if lead = 0xF0 then some [(0x90, 0xBF), any, any]
  else if lead < 0xF4 then some [any, any, any]
  else if lead = 0xF4 then some [(0x80, 0x8F), any, any]
  else none

/-- The part of a character's number that stands in its lead byte. -/
def leadValue (lead : Nat) : Nat :=
  if lead < 0x80 then lead
  else if lead < 0xE0 then lead - 0xC0
  else if lead < 0xF0 then lead - 0xE0
  else lead - 0xF0

/--
The number of the character that begins with `value` and goes on with
continuation bytes in the given ranges, and the bytes after it. On a defect,
`done` continuation bytes and more have been right.
-/
def continuation
    (value done : Nat) :
    List (Nat × Nat) → List UInt8 → Except (Nat × Defect) (Nat × List UInt8)
  | [], rest => .ok (value, rest)
  | _ :: _, [] => .error (done, .unexpectedEnd)
  | range :: ranges, byte :: rest =>
      if range.1 ≤ byte.toNat ∧ byte.toNat ≤ range.2 then
        continuation (value * 64 + (byte.toNat - 0x80)) (done + 1) ranges rest
      else
        .error (done, .invalidContinuation)

/-- The bytes after a character are not more than the bytes after its lead. -/
theorem length_of_continuation
    {value done number : Nat}
    {ranges : List (Nat × Nat)}
    {bytes rest : List UInt8}
    (found : continuation value done ranges bytes = .ok (number, rest)) :
    rest.length ≤ bytes.length := by
  fun_induction continuation value done ranges bytes with
  | case1 value done bytes =>
      simp only [Except.ok.injEq, Prod.mk.injEq] at found
      exact Nat.le_of_eq (congrArg List.length found.2.symm)
  | case2 =>
      contradiction
  | case3 value done range ranges byte bytes _ inductionHypothesis =>
      have shorter := inductionHypothesis found
      simp only [List.length_cons]
      omega
  | case4 =>
      contradiction

/-- The characters of some bytes, before which `position` others stand. -/
def decodeFrom (position : Nat) : List UInt8 → Except Fault (List Char)
  | [] => .ok []
  | lead :: bytes =>
      match continuationRanges? lead.toNat with
      | none => .error ⟨position, lead, 0, .invalidStart⟩
      | some ranges =>
          match _character : continuation (leadValue lead.toNat) 0 ranges bytes with
          | .error (done, defect) => .error ⟨position, lead, done, defect⟩
          | .ok (number, rest) =>
              (decodeFrom (position + 1 + ranges.length) rest).map fun characters =>
                Char.ofNat number :: characters
termination_by bytes => bytes.length
decreasing_by
  have shorter := length_of_continuation _character
  simp only [List.length_cons]
  omega

/-- The characters of some bytes. -/
def decode (bytes : List UInt8) : Except Fault (List Char) :=
  decodeFrom 0 bytes

end QtSheet.Text.Utf8

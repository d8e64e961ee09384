import QtSheet.Sheet.Fault

namespace QtSheet

/-!
# Readings

A reading takes what it needs from the front of a list of tokens. It ends with
a value and the tokens after it, or it gets stuck, for a reason, in front of
the token to blame. Either way the tokens left are the end of those given.
-/

/-- The outcome of reading from the front of a list of tokens. -/
inductive Reading (α : Type) where
  /-- A value, and the tokens after it. -/
  | done (value : α) (rest : List Token)
  /-- The reason for stopping, and the tokens from the blamed one on. -/
  | stuck (reason : Reason) (rest : List Token)
  deriving Repr, DecidableEq

namespace Reading

/-- The tokens not taken. -/
def rest : Reading α → List Token
  | .done _ rest => rest
  | .stuck _ rest => rest

/-- Go on with the value and the tokens left. -/
def andThen
    (reading : Reading α)
    (continuation : α → List Token → Reading β) :
    Reading β :=
  match reading with
  | .done value rest => continuation value rest
  | .stuck reason rest => .stuck reason rest

/-- Change the value. -/
def map (f : α → β) : Reading α → Reading β
  | .done value rest => .done (f value) rest
  | .stuck reason rest => .stuck reason rest

@[simp] theorem rest_done (value : α) (tokens : List Token) :
    (Reading.done value tokens).rest = tokens :=
  rfl

@[simp] theorem rest_stuck (reason : Reason) (tokens : List Token) :
    (Reading.stuck reason tokens : Reading α).rest = tokens :=
  rfl

/-- Changing what was read leaves the same tokens. -/
@[simp] theorem rest_map (f : α → β) (reading : Reading α) :
    (reading.map f).rest = reading.rest := by
  cases reading <;> rfl

/-- What is left after two steps is the end of what was given, if this holds of each. -/
theorem rest_andThen
    {reading : Reading α}
    {continuation : α → List Token → Reading β}
    {tokens : List Token}
    (firstStep : reading.rest <:+ tokens)
    (secondStep :
      ∀ value rest, reading = .done value rest →
        (continuation value rest).rest <:+ rest) :
    (reading.andThen continuation).rest <:+ tokens := by
  cases reading with
  | done value rest =>
      exact (secondStep value rest rfl).trans firstStep
  | stuck reason rest =>
      exact firstStep

end Reading

/-- Take a token of one kind; for want of it, get stuck for the given reason. -/
def expect (kind : Kind) (reason : Reason) : List Token → Reading Token
  | [] => .stuck reason []
  | token :: rest =>
      if token.kind = kind then
        .done token rest
      else
        .stuck reason (token :: rest)

/-- Expecting a token leaves the end of the tokens. -/
theorem rest_expect (kind : Kind) (reason : Reason) (tokens : List Token) :
    (expect kind reason tokens).rest <:+ tokens := by
  cases tokens with
  | nil =>
      exact List.suffix_rfl
  | cons token rest =>
      rw [expect]
      split
      · exact List.suffix_cons token rest
      · exact List.suffix_rfl

/-- A token taken is the first one, of the kind expected. -/
theorem eq_cons_of_expect
    {kind : Kind}
    {reason : Reason}
    {tokens rest : List Token}
    {token : Token}
    (taken : expect kind reason tokens = .done token rest) :
    tokens = token :: rest ∧ token.kind = kind := by
  cases tokens with
  | nil =>
      simp [expect] at taken
  | cons head tail =>
      by_cases sameKind : head.kind = kind
      · rw [expect, if_pos sameKind] at taken
        obtain ⟨rfl, rfl⟩ := Reading.done.inj taken
        exact ⟨rfl, sameKind⟩
      · rw [expect, if_neg sameKind] at taken
        contradiction

end QtSheet

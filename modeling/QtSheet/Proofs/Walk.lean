import Mathlib.Data.PFun
import QtSheet.Proofs.Reading

namespace QtSheet

/-!
# Walks over tokens

Tokens can be read in place as well: a cursor stands on one of them and moves on
when the token is taken. Such a walk can go wrong where a reading from the front
of a list cannot. It can look for a token where there is none, look back from
the first token, make a pass of a loop without taking a token, or not come to an
end. The walks below are stopped by a misstep as soon as there is one, and their
loops are free to run on forever.

A walk follows a reading when it ends, without a misstep, with what the reading
ends with: the same value, in front of the same tokens, after the same faults.
-/

namespace Walk

/-- What a walk over tokens is stopped by. -/
inductive Misstep where
  /-- A look for a token where there is none. -/
  | outOfRange
  /-- A look back from the first token. -/
  | beforeFirst
  /-- A pass of a loop that takes no token. -/
  | standstill
  deriving Repr, DecidableEq

/-- A place among tokens, and the findings so far. -/
structure Cursor where
  tokens : List Token
  position : Nat
  diagnostics : List Diagnostic
  deriving Repr, DecidableEq

end Walk

/-- A way of a cursor that ends with a value or a misstep, if it ends. -/
abbrev Walk := StateT Walk.Cursor (ExceptT Walk.Misstep Part)

namespace Walk

/-- A walk that may give up. -/
abbrev Attempt := OptionT Walk

/-- The token at the cursor. -/
def peek : Walk Token := do
  let cursor ← get
  match cursor.tokens[cursor.position]? with
  | some token => return token
  | none => throw .outOfRange

/-- Take the token at the cursor, which moves on unless it is at an end of input. -/
def next : Walk Token := do
  let token ← peek
  if token.kind ≠ .endOfInput then
    modify fun cursor => { cursor with position := cursor.position + 1 }
  return token

/-- The token in front of the cursor. -/
def previous : Walk Token := do
  let cursor ← get
  if cursor.position = 0 then
    throw .beforeFirst
  else
    match cursor.tokens[cursor.position - 1]? with
    | some token => return token
    | none => throw .outOfRange

/-- Report a fault of the token at the cursor. -/
def report (reason : Reason) : Walk Unit := do
  let token ← peek
  modify fun cursor =>
    { cursor with
        diagnostics := cursor.diagnostics ++ [Fault.diagnostic token ⟨reason, some token⟩] }

/-- Report a fault of the token at the cursor, and give up. -/
def giveUp (reason : Reason) : Attempt α := do
  report reason
  failure

/-- Try a walk; when it gives up, make another one instead. -/
def orElse (attempt : Attempt α) (other : Walk Unit) : Walk (Option α) := do
  match ← attempt.run with
  | some value => return some value
  | none =>
      other
      return none

/-- Make a walk that has to take a token. -/
def advancing (walk : Walk α) : Walk α := do
  let before ← get
  let value ← walk
  let after ← get
  if after.position = before.position then
    throw .standstill
  else
    return value

/-- What a pass of a loop comes to: another pass from a new state, or the end of the loop. -/
inductive Turn (σ β : Type) where
  | again (state : σ)
  | ended (result : β)

/-- What a pass comes to is where the walk of the loop ends, or the place of another pass. -/
def Turn.place :
    Except Misstep (Turn σ β × Cursor) → Except Misstep (β × Cursor) ⊕ (σ × Cursor)
  | .error misstep => .inl (.error misstep)
  | .ok (.again state, cursor) => .inr (state, cursor)
  | .ok (.ended result, cursor) => .inl (.ok (result, cursor))

/-- A pass of a loop from a state and a cursor. -/
def turnFrom
    (turn : σ → Walk (Turn σ β)) :
    σ × Cursor →. Except Misstep (β × Cursor) ⊕ (σ × Cursor) :=
  fun place => ((turn place.1).run place.2).run.map Turn.place

/-- Pass after pass from a state, with no bound on their number. -/
def loop (turn : σ → Walk (Turn σ β)) (state : σ) : Walk β :=
  -- Nothing here says that the passes end; where they do not, the walk has no outcome.
  fun cursor => ExceptT.mk ((turnFrom turn).fix (state, cursor))

/-- A loop takes turns until one ends it. -/
theorem run_loop (turn : σ → Walk (Turn σ β)) (state : σ) (cursor : Cursor) :
    ((loop turn state).run cursor).run = (turnFrom turn).fix (state, cursor) :=
  rfl

/-- A turn leads to the place where its walk ends. -/
theorem mem_turnFrom
    {turn : σ → Walk (Turn σ β)}
    {state : σ}
    {cursor : Cursor}
    {outcome : Except Misstep (Turn σ β × Cursor)}
    (walked : ((turn state).run cursor).run = Part.some outcome) :
    Turn.place outcome ∈ turnFrom turn (state, cursor) := by
  rw [turnFrom, walked, Part.map_some]
  exact Part.mem_some _

/-- The pass of a loop that may give up; this ends the loop. -/
def Turn.ofAttempt : Option (Turn σ β) → Turn σ (Option β)
  | none => .ended none
  | some (.again state) => .again state
  | some (.ended result) => .ended (some result)

/-- Pass after pass from a state, until one gives up. -/
def Attempt.loop (turn : σ → Attempt (Turn σ β)) (state : σ) : Attempt β :=
  OptionT.mk (Walk.loop (fun state => Turn.ofAttempt <$> (turn state).run) state)

/-- The last token taken is in front of what is left. -/
theorem suffix_of_getLast?
    {taken : List Token}
    {last : Token}
    (isLast : taken.getLast? = some last)
    (left : List Token) :
    last :: left <:+ taken ++ left := by
  obtain ⟨others, rfl⟩ := List.getLast?_eq_some_iff.mp isLast
  exact ⟨others, by simp⟩

/-- Tokens with an end of input among them. -/
structure Ground where
  /-- The tokens in front of the first end of input. -/
  inside : List Token
  ending : Token
  beyond : List Token
  noEnd : ∀ token ∈ inside, token.kind ≠ .endOfInput
  isEnd : ending.kind = .endOfInput

namespace Ground

variable (ground : Ground)

/-- All tokens of the ground. -/
def tokens : List Token :=
  ground.inside ++ ground.ending :: ground.beyond

/-- The cursor in front of the tokens that are left, with the findings so far. -/
def before (left : List Token) (diagnostics : List Diagnostic) : Cursor :=
  ⟨ground.tokens, ground.inside.length - left.length, diagnostics⟩

@[simp] theorem tokens_before (left : List Token) (diagnostics : List Diagnostic) :
    (ground.before left diagnostics).tokens = ground.tokens :=
  rfl

@[simp] theorem position_before (left : List Token) (diagnostics : List Diagnostic) :
    (ground.before left diagnostics).position = ground.inside.length - left.length :=
  rfl

/-- The first of the tokens that are left, or the end of input. -/
def first (left : List Token) : Token :=
  left.head?.getD ground.ending

@[simp] theorem first_nil :
    ground.first [] = ground.ending :=
  rfl

@[simp] theorem first_cons (token : Token) (left : List Token) :
    ground.first (token :: left) = token :=
  rfl

/--
A walk from some tokens of the ground on ends, without a misstep, in front of the
tokens left, with a value and after some faults.
-/
def Passes
    (walk : Walk α)
    (start : List Token)
    (value : α)
    (left : List Token)
    (faults : List Fault) : Prop :=
  -- The tokens left are again some of the ground, so that walks can be put together.
  start <:+ ground.inside →
    left <:+ ground.inside ∧
      ∀ diagnostics,
        (walk.run (ground.before start diagnostics)).run =
          Part.some (.ok
            (value,
              ground.before left
                (diagnostics ++ faults.map (Fault.diagnostic ground.ending))))

/-- A token of the ground in front of its end is no end of input. -/
theorem kind_of_within
    {ground : Ground}
    {token : Token}
    {left : List Token}
    (within : token :: left <:+ ground.inside) :
    token.kind ≠ .endOfInput :=
  ground.noEnd token (within.subset List.mem_cons_self)

/-- Where the cursor is, there is a token: the first one left. -/
theorem getElem?_before
    {left : List Token}
    (within : left <:+ ground.inside) :
    ground.tokens[ground.inside.length - left.length]? = some (ground.first left) := by
  obtain ⟨taken, shape⟩ := within
  have position : ground.inside.length - left.length = taken.length := by
    rw [← shape, List.length_append, Nat.add_sub_cancel]
  rw [position, tokens, ← shape, List.append_assoc, List.getElem?_append_right (Nat.le_refl _),
    Nat.sub_self]
  cases left <;> rfl

end Ground

namespace Ground.Passes

variable
  {ground : Ground}
  {start middle left : List Token}
  {faults later : List Fault}

/-- A walk may be looked at where it is. -/
theorem of_within
    {walk : Walk α}
    {value : α}
    (passes : start <:+ ground.inside → ground.Passes walk start value left faults) :
    ground.Passes walk start value left faults :=
  fun within => passes within within

theorem done (value : α) :
    ground.Passes (pure value) start value start [] := by
  intro within
  exact ⟨within, fun diagnostics => by simp⟩

/-- One walk after another. -/
theorem bind
    {walk : Walk α}
    {continuation : α → Walk β}
    {value : α}
    {result : β}
    (first : ground.Passes walk start value middle faults)
    (second : ground.Passes (continuation value) middle result left later) :
    ground.Passes (walk >>= continuation) start result left (faults ++ later) := by
  intro within
  obtain ⟨middleWithin, firstWalk⟩ := first within
  obtain ⟨leftWithin, secondWalk⟩ := second middleWithin
  refine ⟨leftWithin, fun diagnostics => ?_⟩
  rw [StateT.run_bind, ExceptT.run_bind, firstWalk]
  simp [secondWalk]

/-- A walk and a value from what it comes to. -/
theorem finish
    {walk : Walk α}
    {continuation : α → Walk β}
    {value : α}
    {result : β}
    (passes : ground.Passes walk start value left faults)
    (ends : continuation value = pure result) :
    ground.Passes (walk >>= continuation) start result left faults := by
  have last : ground.Passes (continuation value) left result left [] := by
    rw [ends]
    exact .done result
  have both := passes.bind last
  rwa [List.append_nil] at both

/-- A walk with its value changed. -/
theorem map
    {walk : Walk α}
    {value : α}
    (f : α → β)
    (passes : ground.Passes walk start value left faults) :
    ground.Passes (f <$> walk) start (f value) left faults := by
  rw [map_eq_pure_bind]
  exact passes.finish rfl

/-- A walk that takes a token. -/
theorem advancing
    {walk : Walk α}
    {value : α}
    (passes : ground.Passes walk start value left faults)
    (shorter : left.length < start.length) :
    ground.Passes (advancing walk) start value left faults := by
  intro within
  obtain ⟨leftWithin, walked⟩ := passes within
  refine ⟨leftWithin, fun diagnostics => ?_⟩
  have moved :
      ground.inside.length - left.length ≠ ground.inside.length - start.length := by
    have bounded := within.length_le
    omega
  simp [Walk.advancing, ExceptT.run_bind, walked, moved]

/-- A pass of a loop, and the passes after it. -/
theorem again
    {turn : σ → Walk (Turn σ β)}
    {state newState : σ}
    {result : β}
    (first : ground.Passes (turn state) start (.again newState) middle faults)
    (others : ground.Passes (loop turn newState) middle result left later) :
    ground.Passes (loop turn state) start result left (faults ++ later) := by
  intro within
  obtain ⟨middleWithin, firstWalk⟩ := first within
  obtain ⟨leftWithin, otherWalks⟩ := others middleWithin
  refine ⟨leftWithin, fun diagnostics => ?_⟩
  rw [run_loop, PFun.fix_fwd_eq (mem_turnFrom (firstWalk diagnostics)), ← run_loop, otherWalks,
    List.append_assoc, List.map_append]

/-- The last pass of a loop. -/
theorem ended
    {turn : σ → Walk (Turn σ β)}
    {state : σ}
    {result : β}
    (last : ground.Passes (turn state) start (.ended result) left faults) :
    ground.Passes (loop turn state) start result left faults := by
  intro within
  obtain ⟨leftWithin, walked⟩ := last within
  refine ⟨leftWithin, fun diagnostics => ?_⟩
  rw [run_loop, Part.eq_some_iff]
  exact PFun.fix_stop (mem_turnFrom (walked diagnostics))

end Ground.Passes

namespace Ground

variable {ground : Ground} {left : List Token}

/-- The token at the cursor is the first one left. -/
theorem passes_peek :
    ground.Passes peek left (ground.first left) left [] := by
  intro within
  refine ⟨within, fun diagnostics => ?_⟩
  simp [peek, ground.getElem?_before within]

/-- Taking a token leaves those behind it. -/
theorem passes_next {token : Token} :
    ground.Passes next (token :: left) token left [] := by
  refine passes_peek.bind fun within => ⟨(List.suffix_cons token left).trans within, ?_⟩
  intro diagnostics
  have notEnd := kind_of_within within
  have position :
      ground.inside.length - (token :: left).length + 1 = ground.inside.length - left.length := by
    have bounded := within.length_le
    simp only [List.length_cons] at bounded ⊢
    omega
  simp [notEnd, before, ← position]

/-- The token in front of the cursor is the last one taken. -/
theorem passes_previous
    {last : Token}
    (taken : last :: left <:+ ground.inside) :
    ground.Passes previous left last left [] := by
  intro within
  refine ⟨within, fun diagnostics => ?_⟩
  have bounded := taken.length_le
  rw [List.length_cons] at bounded
  have notFirst : ground.inside.length - left.length ≠ 0 := by
    omega
  have located :
      ground.tokens[ground.inside.length - left.length - 1]? = some last :=
    ground.getElem?_before taken
  simp [previous, notFirst, located]

/-- A fault is reported of the first token left. -/
theorem passes_report (reason : Reason) :
    ground.Passes (report reason) left () left [⟨reason, left.head?⟩] := by
  refine passes_peek.bind fun within => ⟨within, fun diagnostics => ?_⟩
  have blamed :
      Fault.diagnostic (ground.first left) ⟨reason, some (ground.first left)⟩ =
        Fault.diagnostic ground.ending ⟨reason, left.head?⟩ :=
    rfl
  simp [before, blamed]

end Ground

end Walk

namespace Reading

/-- The value, if there is one. -/
def value? : Reading α → Option α
  | .done value _ => some value
  | .stuck _ _ => none

/-- The fault, if there is one. -/
def faults : Reading α → List Fault
  | .done _ _ => []
  | .stuck reason rest => [⟨reason, rest.head?⟩]

end Reading

namespace Walk

/-- A walk that does not give up goes on. -/
theorem run_liftM_bind (walk : Walk α) (continuation : α → Attempt β) :
    (liftM walk >>= continuation).run = walk >>= fun value => (continuation value).run := by
  simp [Option.elimM, liftM, monadLift, MonadLift.monadLift]

/-- A walk from some tokens of the ground on ends as a reading of them does. -/
def Ground.Follows
    (ground : Ground)
    (attempt : Attempt α)
    (start : List Token)
    (reading : Reading α) : Prop :=
  ground.Passes attempt.run start reading.value? reading.rest reading.faults

namespace Ground.Follows

variable {ground : Ground} {start middle : List Token}

theorem of_within
    {attempt : Attempt α}
    {reading : Reading α}
    (follows : start <:+ ground.inside → ground.Follows attempt start reading) :
    ground.Follows attempt start reading :=
  Passes.of_within follows

theorem done (value : α) :
    ground.Follows (pure value) start (.done value start) :=
  Passes.done (some value)

theorem giveUp (reason : Reason) :
    ground.Follows (giveUp reason : Attempt α) start (.stuck reason start) := by
  rw [Follows, Walk.giveUp, run_liftM_bind]
  exact (passes_report reason).bind (.done none)

/-- A walk that does not give up, and a way to go on. -/
theorem after
    {walk : Walk α}
    {continuation : α → Attempt β}
    {value : α}
    {reading : Reading β}
    (first : ground.Passes walk start value middle [])
    (second : ground.Follows (continuation value) middle reading) :
    ground.Follows (liftM walk >>= continuation) start reading := by
  rw [Follows, run_liftM_bind]
  exact first.bind second

/-- One walk after another that comes to a value. -/
theorem step
    {attempt : Attempt α}
    {continuation : α → Attempt β}
    {value : α}
    {reading : Reading β}
    (first : ground.Follows attempt start (.done value middle))
    (second : ground.Follows (continuation value) middle reading) :
    ground.Follows (attempt >>= continuation) start reading := by
  rw [Follows, OptionT.run_bind]
  exact first.bind second

/-- Nothing comes after a walk that gives up. -/
theorem stop
    {attempt : Attempt α}
    {continuation : α → Attempt β}
    {reason : Reason}
    (first : ground.Follows attempt start (.stuck reason middle)) :
    ground.Follows (attempt >>= continuation) start (.stuck reason middle) := by
  rw [Follows, OptionT.run_bind]
  exact first.bind (.done none)

/-- One walk after another. -/
theorem andThen
    {attempt : Attempt α}
    {continuation : α → Attempt β}
    {reading : Reading α}
    {next : α → List Token → Reading β}
    (first : ground.Follows attempt start reading)
    (second :
      ∀ value rest, reading = .done value rest →
        ground.Follows (continuation value) rest (next value rest)) :
    ground.Follows (attempt >>= continuation) start (reading.andThen next) := by
  cases reading with
  | done value rest =>
      exact first.step (second value rest rfl)
  | stuck reason rest =>
      exact first.stop

/-- One walk after another, where more is read than the first walk comes to. -/
theorem andThenOf
    {attempt : Attempt β}
    {continuation : β → Attempt γ}
    {reading : Reading α}
    {f : α → β}
    {next : α → List Token → Reading γ}
    (first : ground.Follows attempt start (reading.map f))
    (second :
      ∀ value rest, reading = .done value rest →
        ground.Follows (continuation (f value)) rest (next value rest)) :
    ground.Follows (attempt >>= continuation) start (reading.andThen next) := by
  cases reading with
  | done value rest =>
      exact first.step (second value rest rfl)
  | stuck reason rest =>
      exact first.stop

/-- A pass of a loop, and the passes after it. -/
theorem again
    {turn : σ → Attempt (Turn σ β)}
    {state newState : σ}
    {reading : Reading β}
    (first : ground.Follows (turn state) start (.done (.again newState) middle))
    (others : ground.Follows (Attempt.loop turn newState) middle reading) :
    ground.Follows (Attempt.loop turn state) start reading := by
  have firstPass := Passes.map Turn.ofAttempt first
  exact firstPass.again others

/-- The last pass of a loop. -/
theorem ended
    {turn : σ → Attempt (Turn σ β)}
    {state : σ}
    {result : β}
    (last : ground.Follows (turn state) start (.done (.ended result) middle)) :
    ground.Follows (Attempt.loop turn state) start (.done result middle) :=
  Passes.ended (Passes.map Turn.ofAttempt last)

/-- A loop ends when a pass gives up. -/
theorem broken
    {turn : σ → Attempt (Turn σ β)}
    {state : σ}
    {reason : Reason}
    (last : ground.Follows (turn state) start (.stuck reason middle)) :
    ground.Follows (Attempt.loop turn state) start (.stuck reason middle) :=
  Passes.ended (Passes.map Turn.ofAttempt last)

/-- A walk with its value changed. -/
theorem map
    {attempt : Attempt α}
    {reading : Reading α}
    {f : α → β}
    (follows : ground.Follows attempt start reading) :
    ground.Follows (attempt >>= fun value => pure (f value)) start (reading.map f) := by
  rw [Reading.map_eq_andThen]
  exact follows.andThen fun value rest _ => .done (f value)

/-- A walk that does not give up, at the end. -/
theorem last
    {walk : Walk α}
    {value : α}
    (passes : ground.Passes walk start value middle []) :
    ground.Follows (liftM walk) start (.done value middle) := by
  rw [← bind_pure (liftM walk)]
  exact .after passes (.done value)

/-- A walk that comes to a value needs no other one. -/
theorem passes_orElse_done
    {attempt : Attempt α}
    {value : α}
    (follows : ground.Follows attempt start (.done value middle))
    (other : Walk Unit) :
    ground.Passes (orElse attempt other) start (some value) middle [] :=
  follows.bind (.done _)

/-- Where a walk gives up, the other one goes on. -/
theorem passes_orElse_stuck
    {attempt : Attempt α}
    {reason : Reason}
    {other : Walk Unit}
    {left : List Token}
    (follows : ground.Follows attempt start (.stuck reason middle))
    (passes : ground.Passes other middle () left []) :
    ground.Passes (orElse attempt other) start none left [⟨reason, middle.head?⟩] :=
  follows.bind (passes.bind (.done none))

end Ground.Follows

/-- Take a token of one kind, or give up. -/
def expect (kind : Kind) (reason : Reason) : Attempt Token := do
  let token ← peek
  if token.kind = kind then
    next
  else
    giveUp reason

/-- Expecting a token follows the reading of it. -/
theorem Ground.follows_expect
    {ground : Ground}
    {kind : Kind}
    (notEnd : kind ≠ .endOfInput)
    (reason : Reason)
    (start : List Token) :
    ground.Follows (expect kind reason) start (QtSheet.expect kind reason start) := by
  refine .after passes_peek ?_
  cases start with
  | nil =>
      rw [first_nil, if_neg (by simpa [ground.isEnd] using notEnd.symm)]
      exact .giveUp reason
  | cons token rest =>
      rw [first_cons, QtSheet.expect]
      split
      · exact .last passes_next
      · exact .giveUp reason

end Walk

end QtSheet

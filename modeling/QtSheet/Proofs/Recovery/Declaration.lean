import Mathlib.Data.List.Basic
import QtSheet.Proofs.Grammar.Anatomy
import QtSheet.Proofs.Grammar.Selector

namespace QtSheet

/-!
# Faulty declarations

A block is cut into segments by its semicolons, and the brace that closes it
ends the last of them. Whatever stands in a segment, it is read as if it were
the only one of its block: it gives a declaration, or a fault, or nothing if it
is empty. The reading of a declaration and what passes over the rest of a faulty
one both keep in front of the token that ends the segment, or just behind it.
-/

open Grammar

/-- The kinds of tokens that end a segment of a block. -/
def segmentEnds : List Kind :=
  [.semicolon, .closeBrace]

theorem mem_segmentEnds {kind : Kind} :
    kind ∈ segmentEnds ↔ kind = .semicolon ∨ kind = .closeBrace := by
  simp [segmentEnds]

theorem not_mem_segmentEnds {kind : Kind} :
    kind ∉ segmentEnds ↔ kind ≠ .semicolon ∧ kind ≠ .closeBrace := by
  simp [segmentEnds]

/-- The reading with more tokens behind those left. -/
def Reading.followedBy (tail : List Token) : Reading α → Reading α
  | .done value rest => .done value (rest ++ tail)
  | .stuck reason rest => .stuck reason (rest ++ tail)

/--
A reading of the tokens in front of an end that does not take the end, and that
does not depend on what stands behind it.
-/
def Confined (stop : Token) (body : List Token) (reader : List Token → Reading α) : Prop :=
  ∃ reading : Reading α,
    reading.rest <:+ body ∧
      ∀ behind, reader (body ++ stop :: behind) = reading.followedBy (stop :: behind)

/--
A reading that takes the tokens in front of an end and, if this is a semicolon,
the end too; or that gets stuck in front of the end. Neither depends on what
stands behind.
-/
inductive Ends (stop : Token) (body : List Token) (reader : List Token → Reading α) : Prop where
  | done
      (value : α) :
      (∀ behind, reader (body ++ stop :: behind) = .done value (skipDeclaration (stop :: behind))) →
      Ends stop body reader
  | stuck
      (reason : Reason)
      (left : List Token) :
      left <:+ body →
      (∀ behind, reader (body ++ stop :: behind) = .stuck reason (left ++ stop :: behind)) →
      Ends stop body reader

/-- A reading comes to an end when it goes on from inside of the segment and then comes to one. -/
theorem Confined.andThen
    {stop : Token}
    {body : List Token}
    {reader : List Token → Reading α}
    {continuation : α → List Token → Reading β}
    (confined : Confined stop body reader)
    (goesOn : ∀ value left, left <:+ body → Ends stop left (continuation value)) :
    Ends stop body fun tokens => (reader tokens).andThen continuation := by
  obtain ⟨reading, within, isRead⟩ := confined
  cases reading with
  | done value left =>
      cases goesOn value left within with
      | done result ends =>
          refine .done result fun behind => ?_
          rw [isRead]
          exact ends behind
      | stuck reason further inside ends =>
          refine .stuck reason further (inside.trans within) fun behind => ?_
          rw [isRead]
          exact ends behind
  | stuck reason left =>
      refine .stuck reason left within fun behind => ?_
      rw [isRead]
      rfl

section Segment

variable {stop : Token} (isEnd : stop.kind ∈ segmentEnds)

include isEnd

/-- Expecting a token does not go beyond the end of a segment. -/
theorem confined_expect
    {kind : Kind}
    (noEnd : kind ∉ segmentEnds)
    (reason : Reason)
    (body : List Token) :
    Confined stop body (expect kind reason) := by
  cases body with
  | nil =>
      have otherKind : stop.kind ≠ kind := fun same => noEnd (same ▸ isEnd)
      refine ⟨.stuck reason [], List.suffix_rfl, fun behind => ?_⟩
      rw [List.nil_append, expect, if_neg otherKind]
      rfl
  | cons token rest =>
      by_cases same : token.kind = kind
      · refine ⟨.done token rest, List.suffix_cons token rest, fun behind => ?_⟩
        rw [List.cons_append, expect, if_pos same]
        rfl
      · refine ⟨.stuck reason (token :: rest), List.suffix_rfl, fun behind => ?_⟩
        rw [List.cons_append, expect, if_neg same]
        rfl

namespace Declaration

/-- The values in front of the end of a segment do not depend on what is behind it. -/
private theorem cutValues_append_end (afterValue : Bool) (body : List Token) :
    ∃ values left,
      left <:+ body ∧
        ∀ behind,
          cutValues afterValue (body ++ stop :: behind) = (values, left ++ stop :: behind) := by
  induction body generalizing afterValue with
  | nil =>
      have noValue :
          (stop.kind.isValue || (afterValue && stop.kind.separatesValues)) = false := by
        revert isEnd
        cases stop.kind <;> simp [segmentEnds, Kind.isValue, Kind.separatesValues]
      refine ⟨[], [], List.suffix_rfl, fun behind => ?_⟩
      rw [List.nil_append, cutValues, noValue]
      rfl
  | cons token rest inductionHypothesis =>
      by_cases isPart : (token.kind.isValue || (afterValue && token.kind.separatesValues)) = true
      · obtain ⟨values, left, within, cut⟩ := inductionHypothesis token.kind.isValue
        refine ⟨token :: values, left, within.trans (List.suffix_cons token rest), ?_⟩
        intro behind
        rw [List.cons_append, cutValues, if_pos isPart, cut]
      · refine ⟨[], token :: rest, List.suffix_rfl, fun behind => ?_⟩
        rw [List.cons_append, cutValues, if_neg isPart]

/-- Reading a value does not go beyond the end of a segment. -/
theorem confined_readValues (property : String) (body : List Token) :
    Confined stop body (readValues property) := by
  obtain ⟨values, left, within, cut⟩ := cutValues_append_end isEnd false body
  have stuck :
      (∀ last ∈ values.getLast?, last.kind.isValue = false) →
      Confined stop body (readValues property) := by
    intro noValue
    refine ⟨.stuck (.propertyValue property) left, within, fun behind => ?_⟩
    rw [readValues, cut]
    cases isLast : values.getLast? with
    | none =>
        rfl
    | some last =>
        simp only [noValue last isLast, Bool.false_eq_true, ↓reduceIte]
        rfl
  cases isLast : values.getLast? with
  | none =>
      exact stuck (by simp [isLast])
  | some last =>
      by_cases isValue : last.kind.isValue = true
      · refine ⟨.done (values, last) left, within, fun behind => ?_⟩
        rw [readValues, cut]
        simp only [isLast, isValue, ↓reduceIte]
        rfl
      · exact stuck (by simpa [isLast] using isValue)

private theorem confined_readImportanceWord (body : List Token) :
    Confined stop body readImportanceWord := by
  cases body with
  | nil =>
      have noWord : isImportance stop = false := by
        unfold isImportance
        revert isEnd
        cases stop.kind <;> simp [segmentEnds]
      refine ⟨.stuck .importance [], List.suffix_rfl, fun behind => ?_⟩
      rw [List.nil_append, readImportanceWord, noWord]
      rfl
  | cons word rest =>
      by_cases isWord : isImportance word = true
      · refine ⟨.done word rest, List.suffix_cons word rest, fun behind => ?_⟩
        rw [List.cons_append, readImportanceWord, if_pos isWord]
        rfl
      · refine ⟨.stuck .importance (word :: rest), List.suffix_rfl, fun behind => ?_⟩
        rw [List.cons_append, readImportanceWord, if_neg isWord]
        rfl

/-- Reading a mark of importance does not go beyond the end of a segment. -/
theorem confined_readImportance (last : Token) (body : List Token) :
    Confined stop body (readImportance last) := by
  cases body with
  | nil =>
      have noMark : stop.kind ≠ .exclamation := by
        intro isMark
        simp [isMark, segmentEnds] at isEnd
      refine ⟨.done (false, last) [], List.suffix_rfl, fun behind => ?_⟩
      rw [List.nil_append, readImportance, if_neg noMark]
      rfl
  | cons mark rest =>
      by_cases isMark : mark.kind = .exclamation
      · obtain ⟨reading, within, isRead⟩ := confined_readImportanceWord isEnd rest
        refine ⟨reading.map fun word => (true, word), ?_, fun behind => ?_⟩
        · rw [Reading.rest_map]
          exact within.trans (List.suffix_cons mark rest)
        · rw [List.cons_append, readImportance, if_pos isMark, isRead]
          cases reading <;> rfl
      · refine ⟨.done (false, last) (mark :: rest), List.suffix_rfl, fun behind => ?_⟩
        rw [List.cons_append, readImportance, if_neg isMark]
        rfl

/-- A segment ends the declaration in it, unless something else stands in front of its end. -/
theorem ends_readEnd
    {body : List Token}
    (inside : Avoids segmentEnds body)
    (property : String)
    (f : Unit → α) :
    Ends stop body fun tokens => (readEnd property tokens).map f := by
  cases body with
  | nil =>
      refine .done (f ()) fun behind => ?_
      rcases mem_segmentEnds.mp isEnd with isSemicolon | isClose
      · simp [readEnd, skipDeclaration, isSemicolon]
      · simp [readEnd, skipDeclaration, isClose]
  | cons token rest =>
      obtain ⟨noSemicolon, noClose⟩ := not_mem_segmentEnds.mp (avoids_cons.mp inside).1
      refine .stuck (.declarationEnd property) (token :: rest) List.suffix_rfl fun behind => ?_
      rw [List.cons_append, readEnd, if_neg noSemicolon, if_neg noClose]
      rfl

/-- A declaration is read inside of its segment. -/
theorem ends_read
    {body : List Token}
    (inside : Avoids segmentEnds body)
    (name : Token) :
    Ends stop body (read name) := by
  have within : ∀ {left : List Token}, left <:+ body → Avoids segmentEnds left :=
    fun isSuffix token member => inside token (isSuffix.subset member)
  refine (confined_expect isEnd (by decide) _ body).andThen ?_
  intro _ afterColon insideColon
  refine (confined_readValues isEnd _ afterColon).andThen ?_
  rintro ⟨values, lastValue⟩ afterValues insideValues
  refine (confined_readImportance isEnd lastValue afterValues).andThen ?_
  rintro ⟨important, last⟩ afterAll insideAll
  exact ends_readEnd isEnd (within (insideAll.trans (insideValues.trans insideColon))) _ _

end Declaration

end Segment

/-- Passing over the rest of a faulty declaration comes to the end of the segment. -/
theorem skipDeclaration_append_end
    {left : List Token}
    (inside : Avoids segmentEnds left)
    (stop : Token)
    (behind : List Token) :
    skipDeclaration (left ++ stop :: behind) = skipDeclaration (stop :: behind) := by
  induction left with
  | nil =>
      rfl
  | cons token rest inductionHypothesis =>
      obtain ⟨notEnd, restInside⟩ := avoids_cons.mp inside
      obtain ⟨noSemicolon, noClose⟩ := not_mem_segmentEnds.mp notEnd
      rw [List.cons_append, skipDeclaration, if_neg noClose, if_neg noSemicolon]
      exact inductionHypothesis restInside

/-- What a segment gives to its block. -/
inductive Yield where
  | nothing
  | declared (declaration : Declaration)
  | faulty (reason : Reason) (blamed : Token)

namespace Yield

/-- The block with what a segment in front of it gives. -/
def addTo : Yield → Block → Block
  | .nothing, block => block
  | .declared declaration, block => block.addDeclaration declaration
  | .faulty reason blamed, block =>
      { block with faults := ⟨reason, some blamed⟩ :: block.faults }

def declarations : Yield → List Declaration
  | .declared declaration => [declaration]
  | _ => []

def faults : Yield → List Fault
  | .faulty reason blamed => [⟨reason, some blamed⟩]
  | _ => []

/-- A yield is put in front of what a block has. -/
theorem addTo_eq (yield : Yield) (block : Block) :
    yield.addTo block =
      { block with
          declarations := yield.declarations ++ block.declarations
          faults := yield.faults ++ block.faults } := by
  cases yield <;> rfl

/-- A segment gives one fault at most. -/
theorem length_faults (yield : Yield) :
    yield.faults.length ≤ 1 := by
  cases yield <;> simp [faults]

/-- A fault of a segment is at a token, not at the end of the input. -/
theorem isSome_of_mem_faults
    {yield : Yield}
    {fault : Fault}
    (member : fault ∈ yield.faults) :
    fault.token?.isSome := by
  cases yield with
  | nothing =>
      contradiction
  | declared declaration =>
      contradiction
  | faulty reason blamed =>
      rw [List.mem_singleton.mp member]
      rfl

end Yield

/--
What the tokens in front of an end give to a block does not depend on what
stands behind, and the block goes on there.
-/
theorem exists_yield
    {stop : Token}
    {body : List Token}
    (isEnd : stop.kind ∈ segmentEnds)
    (inside : Avoids segmentEnds body) :
    ∃ yield : Yield,
      (body = [] → yield = .nothing) ∧
        ∀ behind,
          Block.read (body ++ stop :: behind) =
            yield.addTo (Block.read (skipDeclaration (stop :: behind))) := by
  cases body with
  | nil =>
      refine ⟨.nothing, fun _ => rfl, fun behind => ?_⟩
      rcases mem_segmentEnds.mp isEnd with isSemicolon | isClose
      · simp [Yield.addTo, Block.read_cons, skipDeclaration, isSemicolon]
      · simp [Yield.addTo, skipDeclaration, isClose]
  | cons token rest =>
      obtain ⟨notEnd, restInside⟩ := avoids_cons.mp inside
      obtain ⟨noSemicolon, noClose⟩ := not_mem_segmentEnds.mp notEnd
      by_cases isName : token.kind = .identifier
      · cases Declaration.ends_read isEnd restInside token with
        | done declaration isRead =>
            refine ⟨.declared declaration, by simp, fun behind => ?_⟩
            rw [List.cons_append, Block.read_cons, if_neg noClose, if_neg noSemicolon,
              if_pos isName, isRead]
            rfl
        | stuck reason left within isRead =>
            have leftInside : Avoids segmentEnds left :=
              fun other member => restInside other (within.subset member)
            refine ⟨.faulty reason (left.head?.getD stop), by simp, fun behind => ?_⟩
            rw [List.cons_append, Block.read_cons, if_neg noClose, if_neg noSemicolon,
              if_pos isName, isRead]
            simp only [skipDeclaration_append_end leftInside]
            cases left <;> rfl
      · refine ⟨.faulty .propertyName token, by simp, fun behind => ?_⟩
        rw [List.cons_append, Block.read_cons, if_neg noClose, if_neg noSemicolon,
          if_neg isName, skipDeclaration_append_end restInside]
        rfl

/-- A segment of a block, with the semicolon that ends it, if one does. -/
structure Segment where
  tokens : List Token
  semicolon? : Option Token
  inside : Avoids (.endOfInput :: segmentEnds) tokens
  isSemicolon : ∀ semicolon ∈ semicolon?, semicolon.kind = .semicolon

/-- The tokens of a segment, with its semicolon. -/
def Segment.written (segment : Segment) : List Token :=
  segment.tokens ++ segment.semicolon?.toList

/-- Segments that a block is cut into: a semicolon ends each of them but the last. -/
inductive CutsBlock : List Segment → Prop where
  | last
      {segment : Segment} :
      segment.semicolon? = none →
      CutsBlock [segment]
  | cons
      {segment : Segment}
      {semicolon : Token}
      {rest : List Segment} :
      segment.semicolon? = some semicolon →
      CutsBlock rest →
      CutsBlock (segment :: rest)

/-- A block that ends with a closing brace at the end of the tokens, with its faults at tokens. -/
structure Block.ClosedBy (closing : Token) (block : Block) : Prop where
  closes : block.close? = some closing
  noneLeft : block.rest = []
  atTokens : ∀ fault ∈ block.faults, fault.token?.isSome

namespace Segment

/-- The block that a segment alone makes in front of a closing brace. -/
def block (closing : Token) (segment : Segment) : Block :=
  Block.read (segment.written ++ [closing])

/-- A segment gives the same to the block behind it as to a block of its own. -/
structure Gives (closing : Token) (segment : Segment) (yield : Yield) : Prop where
  empty : segment.tokens = [] → yield = .nothing
  alone : segment.block closing = yield.addTo ⟨[], [], some closing, []⟩
  behind :
    segment.semicolon?.isSome →
      ∀ rest, Block.read (segment.written ++ rest) = yield.addTo (Block.read rest)

/-- Every segment gives something. -/
theorem exists_gives
    {closing : Token}
    (closes : closing.kind = .closeBrace)
    (segment : Segment) :
    ∃ yield, segment.Gives closing yield := by
  have readClosing : Block.read [closing] = ⟨[], [], some closing, []⟩ := by
    rw [Block.read_cons, if_pos closes]
  cases terminated : segment.semicolon? with
  | none =>
      have isEnd : closing.kind ∈ segmentEnds := mem_segmentEnds.mpr (.inr closes)
      obtain ⟨yield, empty, isRead⟩ := exists_yield isEnd segment.inside.of_cons
      refine ⟨yield, empty, ?_, by simp [terminated]⟩
      rw [block, written, terminated, Option.toList_none, List.append_nil, isRead,
        skipDeclaration, if_pos closes, readClosing]
  | some semicolon =>
      have isSemicolon := segment.isSemicolon semicolon terminated
      have isEnd : semicolon.kind ∈ segmentEnds := mem_segmentEnds.mpr (.inl isSemicolon)
      obtain ⟨yield, empty, isRead⟩ := exists_yield isEnd segment.inside.of_cons
      have read :
          ∀ rest, Block.read (segment.written ++ rest) = yield.addTo (Block.read rest) := by
        intro rest
        rw [written, terminated, Option.toList_some, List.append_assoc, List.singleton_append,
          isRead]
        simp [skipDeclaration, isSemicolon]
      refine ⟨yield, empty, ?_, fun _ => read⟩
      rw [block, read, readClosing]

/-- The faults of a segment alone in its block are those that it gives. -/
theorem Gives.faults_eq
    {closing : Token}
    {segment : Segment}
    {yield : Yield}
    (gives : segment.Gives closing yield) :
    (segment.block closing).faults = yield.faults := by
  simp [gives.alone, Yield.addTo_eq]

/-- A block of one segment is closed by its brace. -/
theorem closedBy_block
    {closing : Token}
    (closes : closing.kind = .closeBrace)
    (segment : Segment) :
    (segment.block closing).ClosedBy closing := by
  obtain ⟨yield, gives⟩ := segment.exists_gives closes
  refine ⟨by rw [gives.alone, Yield.addTo_eq], by rw [gives.alone, Yield.addTo_eq], ?_⟩
  rw [gives.faults_eq]
  exact fun fault => Yield.isSome_of_mem_faults

/-- The tokens of a segment do not hold the end of the input. -/
theorem noEnd_written (segment : Segment) :
    Avoids [.endOfInput] segment.written := by
  refine avoids_append.mpr ⟨?_, ?_⟩
  · intro token member isEnd
    exact segment.inside token member (List.mem_cons.mpr (.inl (List.mem_singleton.mp isEnd)))
  · intro semicolon member
    simp [segment.isSemicolon semicolon (Option.mem_toList.mp member)]

end Segment

/-- A block is read segment by segment, each as if it were the only one. -/
theorem read_segments
    {closing : Token}
    {segments : List Segment}
    (closes : closing.kind = .closeBrace)
    (cuts : CutsBlock segments) :
    Block.read (segments.flatMap Segment.written ++ [closing]) =
      {
        declarations := segments.flatMap fun segment => (segment.block closing).declarations
        faults := segments.flatMap fun segment => (segment.block closing).faults
        close? := some closing
        rest := []
      } := by
  induction cuts with
  | @last segment _ =>
      obtain ⟨yield, gives⟩ := segment.exists_gives closes
      rw [List.flatMap_singleton, ← Segment.block, gives.alone, Yield.addTo_eq]
      simp [gives.alone, Yield.addTo_eq]
  | @cons segment semicolon rest terminated _ inductionHypothesis =>
      obtain ⟨yield, gives⟩ := segment.exists_gives closes
      have isTerminated : segment.semicolon?.isSome := by
        simp [terminated]
      rw [List.flatMap_cons, List.append_assoc, gives.behind isTerminated, inductionHypothesis,
        Yield.addTo_eq]
      simp [gives.alone, Yield.addTo_eq]

/-- A block of segments is closed by its brace. -/
theorem closedBy_segments
    {closing : Token}
    {segments : List Segment}
    (closes : closing.kind = .closeBrace)
    (cuts : CutsBlock segments) :
    (Block.read (segments.flatMap Segment.written ++ [closing])).ClosedBy closing := by
  rw [read_segments closes cuts]
  refine ⟨rfl, rfl, ?_⟩
  intro fault member
  obtain ⟨segment, _, isFault⟩ := List.mem_flatMap.mp member
  exact (segment.closedBy_block closes).atTokens fault isFault

/-- A rule around the inside of its block, behind which the input ends. -/
structure RuleFrame where
  group : List Token
  opening : Token
  closing : Token
  behind : List Token
  chains : List Chain
  form : ChainsForm group chains
  opens : opening.kind = .openBrace
  closes : closing.kind = .closeBrace
  ends : tokensBeforeEnd behind = []

namespace RuleFrame

variable (frame : RuleFrame)

/-- The tokens of the rule with something in its block, up to the end of the input. -/
def around (inside : List Token) : List Token :=
  frame.group ++ frame.opening :: (inside ++ frame.closing :: frame.behind)

/-- What is read from the rule with something in its block. -/
def sheet (inside : List Token) : Except (List Diagnostic) Sheet :=
  Sheet.ofTokens (frame.around inside)

/-- In front of the end of the input stand the selectors and the block. -/
theorem tokensBeforeEnd_around
    {inside : List Token}
    (noEnd : Avoids [.endOfInput] inside) :
    tokensBeforeEnd (frame.around inside) =
      frame.group ++ frame.opening :: (inside ++ [frame.closing]) := by
  have groupNoEnd : Avoids [.endOfInput] frame.group :=
    .of_kind_mem frame.form.kind_mem (by decide)
  have allNoEnd :
      Avoids [.endOfInput] (frame.group ++ frame.opening :: (inside ++ [frame.closing])) := by
    simp [groupNoEnd, noEnd, frame.opens, frame.closes]
  have shape :
      frame.around inside =
        (frame.group ++ frame.opening :: (inside ++ [frame.closing])) ++ frame.behind := by
    simp [around]
  rw [shape, tokensBeforeEnd_append fun token member => by simpa using allNoEnd token member,
    frame.ends, List.append_nil]

/-- A rule whose block is closed is read with the faults and the declarations of the block. -/
theorem outline_around
    {inside : List Token}
    (noEnd : Avoids [.endOfInput] inside)
    (closed : (Block.read (inside ++ [frame.closing])).ClosedBy frame.closing) :
    ∃ rule,
      Sheet.outline (frame.around inside) =
          ⟨[rule], (Block.read (inside ++ [frame.closing])).faults⟩ ∧
        rule.declarations = (Block.read (inside ++ [frame.closing])).declarations := by
  obtain ⟨first, tail, isGroup⟩ := frame.form.exists_cons
  have noEnding : Avoids [.closeBrace, .semicolon] frame.group :=
    .of_kind_mem frame.form.kind_mem (by decide)
  have readGroup :
      readChains (frame.group ++ frame.opening :: (inside ++ [frame.closing])) =
        .done frame.chains (frame.opening :: (inside ++ [frame.closing])) :=
    readChains_of_form frame.form frame.opens
  rw [Sheet.outline, frame.tokensBeforeEnd_around noEnd]
  rw [isGroup] at noEnding readGroup ⊢
  have notStray : ¬ (first.kind = .closeBrace ∨ first.kind = .semicolon) := by
    simpa using (avoids_cons.mp noEnding).1
  rw [List.cons_append] at readGroup ⊢
  rw [Outline.read, if_neg notStray]
  simp only [RuleReading.read, readGroup, RuleReading.readBlock, if_pos frame.opens,
    closed.closes, closed.noneLeft, RuleReading.ruleOf?, List.nil_append, Outline.read,
    Outline.addRule, Option.toList_some, List.append_nil, Outline.mk.injEq, List.cons.injEq,
    and_true, exists_eq_left']

/-- The findings about a rule whose block is closed are those about the faults of the block. -/
theorem findings_sheet
    {inside : List Token}
    (noEnd : Avoids [.endOfInput] inside)
    (closed : (Block.read (inside ++ [frame.closing])).ClosedBy frame.closing) :
    findings (frame.sheet inside) =
      (Block.read (inside ++ [frame.closing])).faults.map (Fault.diagnostic frame.closing) := by
  obtain ⟨rule, isOutline, _⟩ := frame.outline_around noEnd closed
  rw [sheet, findings_ofTokens, isOutline]
  exact map_diagnostic_congr closed.atTokens _ _

/-- A rule whose block is closed and has no fault is read with the declarations of the block. -/
theorem sheet_eq_ok
    {inside : List Token}
    (noEnd : Avoids [.endOfInput] inside)
    (closed : (Block.read (inside ++ [frame.closing])).ClosedBy frame.closing)
    (noFindings : findings (frame.sheet inside) = []) :
    ∃ rule,
      frame.sheet inside = .ok ⟨[rule]⟩ ∧
        rule.declarations = (Block.read (inside ++ [frame.closing])).declarations := by
  obtain ⟨rule, isOutline, declarations⟩ := frame.outline_around noEnd closed
  rw [frame.findings_sheet noEnd closed, List.map_eq_nil_iff] at noFindings
  refine ⟨rule, ofTokens_eq_ok.mpr ?_, declarations⟩
  rw [isOutline]
  exact ⟨noFindings, rfl⟩

end RuleFrame

/-- The declarations of the sheet that is read, if one is. -/
def declarationsOf : Except (List Diagnostic) Sheet → List Declaration
  | .ok sheet => sheet.declarations
  | .error _ => []

/--
What is read from a rule is what is read from it with one segment after the
other in its block.
-/
structure ReadsBySegments
    (sheet : List Token → Except (List Diagnostic) Sheet)
    (segments : List Segment) :
    Prop where
  concatenated :
    findings (sheet (segments.flatMap Segment.written)) =
      segments.flatMap fun segment => findings (sheet segment.written)
  single :
    ∀ segment ∈ segments, (findings (sheet segment.written)).length ≤ 1
  empty :
    ∀ segment ∈ segments, segment.tokens = [] → findings (sheet segment.written) = []
  declarations :
    findings (sheet (segments.flatMap Segment.written)) = [] →
      ∃ rule,
        sheet (segments.flatMap Segment.written) = .ok ⟨[rule]⟩ ∧
          rule.declarations = segments.flatMap fun segment => declarationsOf (sheet segment.written)

/--
Whatever the segments of a block are, the findings about its rule are those
about the rule with each segment alone in its block, in order. A segment leads
to one finding at most, and an empty one to none.
-/
theorem RuleFrame.readsBySegments
    (frame : RuleFrame)
    {segments : List Segment}
    (cuts : CutsBlock segments) :
    ReadsBySegments frame.sheet segments := by
  have closed := closedBy_segments frame.closes cuts
  have noEnd : Avoids [.endOfInput] (segments.flatMap Segment.written) := by
    intro token member
    obtain ⟨segment, _, isToken⟩ := List.mem_flatMap.mp member
    exact segment.noEnd_written token isToken
  have alone :
      ∀ segment : Segment,
        findings (frame.sheet segment.written) =
          (segment.block frame.closing).faults.map (Fault.diagnostic frame.closing) :=
    fun segment =>
      frame.findings_sheet segment.noEnd_written (segment.closedBy_block frame.closes)
  have whole :
      findings (frame.sheet (segments.flatMap Segment.written)) =
        segments.flatMap fun segment => findings (frame.sheet segment.written) := by
    rw [frame.findings_sheet noEnd closed, read_segments frame.closes cuts, List.map_flatMap]
    simp only [alone]
  refine ⟨whole, ?_, ?_, ?_⟩
  · intro segment _
    obtain ⟨yield, gives⟩ := segment.exists_gives frame.closes
    rw [alone, List.length_map, gives.faults_eq]
    exact yield.length_faults
  · intro segment _ isEmpty
    obtain ⟨yield, gives⟩ := segment.exists_gives frame.closes
    rw [alone, gives.faults_eq, gives.empty isEmpty]
    rfl
  · intro noFindings
    obtain ⟨rule, isRead, declarations⟩ := frame.sheet_eq_ok noEnd closed noFindings
    refine ⟨rule, isRead, ?_⟩
    rw [declarations, read_segments frame.closes cuts]
    refine List.flatMap_congr ?_
    intro segment member
    rw [whole, List.flatMap_eq_nil_iff] at noFindings
    obtain ⟨own, isOwn, ownDeclarations⟩ :=
      frame.sheet_eq_ok segment.noEnd_written (segment.closedBy_block frame.closes)
        (noFindings segment member)
    rw [isOwn, declarationsOf, Sheet.declarations, List.flatMap_singleton, ownDeclarations,
      Segment.block]

/-- The rule of the type `a`, with a block that ends at a given place. -/
def RuleFrame.ofType (stop : Nat) : RuleFrame where
  group := [⟨⟨"a", 0, 1, 1, 1⟩, .identifier⟩]
  opening := ⟨⟨"\x7b", 1, 1, 1, 2⟩, .openBrace⟩
  closing := ⟨⟨"\x7d", stop, 1, 1, stop + 1⟩, .closeBrace⟩
  behind := [⟨⟨"", stop + 1, 0, 1, stop + 2⟩, .endOfInput⟩]
  chains := _
  form := .last (.last (.typed (.inl rfl) .nil (Nat.zero_le 1) (Nat.zero_le 1) rfl))
  opens := rfl
  closes := rfl
  ends := rfl

/-- The segment `b;` of a block. -/
def segmentWithoutColon : Segment where
  tokens := [⟨⟨"b", 2, 1, 1, 3⟩, .identifier⟩]
  semicolon? := some ⟨⟨";", 3, 1, 1, 4⟩, .semicolon⟩
  inside := by simp [segmentEnds]
  isSemicolon := by simp

/-- The segment `;` of a block. -/
def emptySegment : Segment where
  tokens := []
  semicolon? := some ⟨⟨";", 4, 1, 1, 5⟩, .semicolon⟩
  inside := avoids_nil
  isSemicolon := by simp

/-- The segment `p:1;` of a block. -/
def segmentWithValue : Segment where
  tokens :=
    [⟨⟨"p", 5, 1, 1, 6⟩, .identifier⟩, ⟨⟨":", 6, 1, 1, 7⟩, .propertySeparator⟩,
      ⟨⟨"1", 7, 1, 1, 8⟩, .number⟩]
  semicolon? := some ⟨⟨";", 8, 1, 1, 9⟩, .semicolon⟩
  inside := by simp [segmentEnds]
  isSemicolon := by simp

/-- The segment `c:` of a block. -/
def segmentWithoutValue : Segment where
  tokens := [⟨⟨"c", 9, 1, 1, 10⟩, .identifier⟩, ⟨⟨":", 10, 1, 1, 11⟩, .propertySeparator⟩]
  semicolon? := none
  inside := by simp [segmentEnds]
  isSemicolon := by simp

/--
In `a{b;;p:1;c:}` two segments are at fault, with an empty one and a declaration
between them.
-/
theorem RuleFrame.readsBySegments_two_faulty :
    let frame := RuleFrame.ofType 11
    let segments := [segmentWithoutColon, emptySegment, segmentWithValue, segmentWithoutValue]
    frame.around (segments.flatMap Segment.written) = (tokenize "a\x7bb;;p:1;c:\x7d").tokens ∧
      CutsBlock segments ∧
      ReadsBySegments frame.sheet segments ∧
      ((findings (frame.sheet (segments.flatMap Segment.written))).map fun finding =>
          (finding.start, finding.message)) =
        [(3, "expected ':' after property 'b', found ';'"),
          (11, "expected value for property 'c', found '\x7d'")] ∧
      ((declarationsOf (frame.sheet segmentWithValue.written)).map fun declaration =>
          (declaration.property, declaration.valueText)) =
        [("p", "1")] := by
  intro frame segments
  have cuts : CutsBlock segments := .cons rfl (.cons rfl (.cons rfl (.last rfl)))
  exact ⟨by decide +kernel, cuts, frame.readsBySegments cuts, by decide +kernel,
    by decide +kernel⟩

end QtSheet

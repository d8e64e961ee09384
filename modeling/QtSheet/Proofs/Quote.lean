import Mathlib.Data.List.Chain
import QtSheet.Proofs.Place
import QtSheet.Proofs.Stage
import QtSheet.Proofs.Value.Token
import QtSheet.Report

namespace QtSheet

/-!
# What findings quote

A finding comes with the text that it is about, and a report shows this text
next to the characters that stand at the place of the finding. For almost all
findings these are the same. Only the text of a finding about a value is put
together from the tokens of the value, with one space between them, whatever
stands there instead. So it is what stands at its place exactly when the tokens
are spaced in this way (`lint_quotes_iff`).
-/

open Grammar Text

/-- The text of an excerpt is what a report shows of a text at the place of the excerpt. -/
def Excerpt.Quotes (excerpt : Excerpt) (source : List Char) : Prop :=
  excerpt.text.toList = (Context.ofExcerpt excerpt source).middle

instance (excerpt : Excerpt) (source : List Char) : Decidable (excerpt.Quotes source) :=
  inferInstanceAs (Decidable (_ = _))

/-- A slice of a source quotes it. -/
theorem Excerpt.IsSliceOf.quotes
    {excerpt : Excerpt}
    {source : List Char}
    (isSlice : excerpt.IsSliceOf source) :
    excerpt.Quotes source :=
  isSlice.text

/-- The characters of a text from one offset up to another. -/
def stretch (source : String) (first last : Int) : List Char :=
  ((Span.mk first last).slice source).toList

/-- What stands in a text between two tokens. -/
def gapBetween (source : String) (first second : Token) : List Char :=
  stretch source first.stop second.start

/-- The stretch between two offsets is what remains of the source between them. -/
theorem stretch_eq (source : String) (first last : Int) :
    stretch source first last = (source.toList.drop first.toNat).take (last - first).toNat :=
  String.toList_ofList

/-- The characters up to an offset and those from there on follow one another. -/
theorem stretch_append
    {first middle last : Int}
    (source : String)
    (inside : 0 ≤ first)
    (before : first ≤ middle)
    (behind : middle ≤ last) :
    stretch source first last = stretch source first middle ++ stretch source middle last := by
  have isMiddle : middle.toNat = first.toNat + (middle - first).toNat := by
    omega
  have isLength : (last - first).toNat = (middle - first).toNat + (last - middle).toNat := by
    omega
  rw [stretch_eq, stretch_eq, stretch_eq, isLength, List.take_add, List.drop_drop, isMiddle]

/-- The characters at the place of a slice are its own. -/
theorem Excerpt.IsSliceOf.stretch_eq_text
    {source : String}
    {excerpt : Excerpt}
    (isSlice : excerpt.IsSliceOf source.toList) :
    stretch source excerpt.start excerpt.stop = excerpt.text.toList := by
  have isLength : (excerpt.stop - excerpt.start).toNat = excerpt.length.toNat := by
    rw [Excerpt.stop]
    omega
  rw [stretch_eq, isLength, isSlice.text]

/-- A tile that is neither a token nor a finding is skipped. -/
theorem Tile.role_eq_skipped
    {tile : Tile}
    (noToken : tile.token? = none)
    (noFinding : tile.diagnostic? = none) :
    tile.role = .skipped := by
  refine Decidable.byContradiction fun notSkipped => ?_
  rcases exists_of_role_ne_skipped notSkipped with ⟨token, isToken⟩ | ⟨diagnostic, isFinding⟩
  · rw [noToken] at isToken
    contradiction
  · rw [noFinding] at isFinding
    contradiction

/-- Between two tokens stands the text of the tiles between theirs. -/
theorem gapBetween_of_tilesOf
    {source : String}
    {front between back : List Tile}
    {tile next : Tile}
    {first second : Token}
    (shape : tilesOf source = front ++ tile :: (between ++ next :: back))
    (isFirst : tile.token? = some first)
    (isSecond : next.token? = some second) :
    gapBetween source first second = between.flatMap Tile.text := by
  have otherShape : tilesOf source = (front ++ tile :: between) ++ next :: back := by
    rw [shape, List.append_assoc, List.cons_append]
  have firstPlace := laid_tilesOf source
  rw [shape] at firstPlace
  have secondPlace := laid_tilesOf source
  rw [otherShape] at secondPlace
  have isStop : first.stop = (front.flatMap Tile.text ++ tile.text).length := by
    rw [(Tile.excerpt_of_token? isFirst).1, Tile.excerpt, firstPlace.position_eq.1]
    simp [Excerpt.stop, Excerpt.ofPosition, Position.first]
  have isStart :
      second.start =
        (front.flatMap Tile.text ++ tile.text).length + (between.flatMap Tile.text).length := by
    rw [(Tile.excerpt_of_token? isSecond).1, Tile.excerpt, secondPlace.position_eq.1]
    simp [Excerpt.ofPosition, Position.first, Int.add_assoc]
  have isText :
      source.toList =
        (front.flatMap Tile.text ++ tile.text) ++
          (between.flatMap Tile.text ++ (next :: back).flatMap Tile.text) := by
    rw [← text_tilesOf source, shape]
    simp
  have isLength : (second.start - first.stop).toNat = (between.flatMap Tile.text).length := by
    omega
  rw [gapBetween, stretch_eq, isLength, isStop, isText, Int.toNat_natCast, List.drop_left,
    List.take_left]

/-- Where no characters are reported, layout stands between each token and the next. -/
theorem isChain_layout
    {source : String}
    (noFindings : (tokenize source).diagnostics = []) :
    (Joint.first.tokens (placedPieces source.toList)).IsChain fun first second =>
      Layout (gapBetween source first second) := by
  rw [List.isChain_iff_forall_rel_of_append_cons_cons]
  intro first second before behind split
  rw [tokens_placedPieces] at split
  obtain ⟨front, others, isFront, _, fromFirst⟩ := List.filterMap_eq_append_iff.mp split
  obtain ⟨leading, tile, later, isOthers, _, isFirst, fromSecond⟩ :=
    List.filterMap_eq_cons_iff.mp fromFirst
  obtain ⟨skipped, next, back, isLater, noTokens, isSecond, _⟩ :=
    List.filterMap_eq_cons_iff.mp fromSecond
  have shape : tilesOf source = (front ++ leading) ++ tile :: (skipped ++ next :: back) := by
    rw [isFront, isOthers, isLater, List.append_assoc]
  rw [gapBetween_of_tilesOf shape isFirst isSecond]
  refine (allSound_tilesOf source).layout_of_skipped ?_ ?_
  · exact ⟨(front ++ leading) ++ [tile], next :: back, by rw [shape]; simp⟩
  · intro other member
    refine Tile.role_eq_skipped (noTokens other member) ?_
    rw [diagnostics_tokenize, List.filterMap_eq_nil_iff] at noFindings
    exact noFindings other (by rw [shape]; simp [member])

/-- A text begins with neither white space nor a comment. -/
def BeginsVisibly (text : List Char) : Prop :=
  ∃ c rest, text = c :: rest ∧ isLayout c = false ∧ (c = '/' → rest.head? ≠ some '*')

theorem BeginsVisibly.ne_nil
    {text : List Char}
    (begins : BeginsVisibly text) :
    text ≠ [] := by
  obtain ⟨c, rest, rfl, _⟩ := begins
  exact List.cons_ne_nil c rest

/-- A text that begins with a token begins with a character that is no layout. -/
theorem beginsVisibly_of_nextPiece
    {depth : Nat}
    {c : Char}
    {rest text behind : List Char}
    {kind : Kind}
    (found : nextPiece depth c rest = (.token kind text, behind)) :
    BeginsVisibly (c :: rest) := by
  refine ⟨c, rest, rfl, ?_, ?_⟩
  · refine Bool.eq_false_iff.mpr fun isBlank => ?_
    rw [(NextPiece.blank isBlank).eq] at found
    simp at found
  · intro isSlash opens
    obtain ⟨inside, isRest⟩ := List.head?_eq_some_iff.mp opens
    cases isCut : cutComment? inside with
    | none =>
        rw [(NextPiece.openComment isSlash isRest isCut).eq] at found
        simp at found
    | some cut =>
        rw [(NextPiece.comment isSlash isRest isCut).eq] at found
        simp at found

/-- A token of a text begins visibly, unless it is a combinator. -/
theorem beginsVisibly_of_mem_tokens
    {source : List Char}
    {token : Token}
    (member : token ∈ Joint.first.tokens (placedPieces source))
    (noCombinator : token.kind ≠ .combinator) :
    BeginsVisibly token.text.toList := by
  obtain ⟨before, behind, split⟩ := List.append_of_mem member
  obtain ⟨c, word, isText, found⟩ := nextPiece_of_tokens split noCombinator
  rw [isText]
  exact beginsVisibly_of_nextPiece found

/-- What begins visibly still does so with a space behind it. -/
theorem BeginsVisibly.append_space
    {text : List Char}
    (begins : BeginsVisibly text)
    (behind : List Char) :
    BeginsVisibly (text ++ ' ' :: behind) := by
  obtain ⟨c, rest, rfl, noBlank, noComment⟩ := begins
  refine ⟨c, rest ++ ' ' :: behind, rfl, noBlank, ?_⟩
  intro isSlash
  cases rest with
  | nil =>
      simp
  | cons next rest =>
      exact noComment isSlash

/--
Layout is one space when it can be taken for one, in front of texts that begin
visibly and alike.
-/
theorem Layout.eq_space
    {gap word other : List Char}
    (isGap : Layout gap)
    (begins : BeginsVisibly word)
    (alike : other.head? = word.head?)
    (same : ' ' :: word = gap ++ other) :
    gap = [' '] := by
  obtain ⟨c, rest, rfl, noBlank, noComment⟩ := begins
  cases isGap with
  | nil =>
      obtain rfl : ' ' :: c :: rest = other := same
      obtain rfl : ' ' = c := Option.some.inj alike
      contradiction
  | blank _ isLater =>
      obtain ⟨rfl, later⟩ := List.cons.inj same
      cases isLater with
      | nil =>
          rfl
      | blank isBlank _ =>
          obtain ⟨rfl, _⟩ := List.cons.inj later
          rw [isBlank] at noBlank
          contradiction
      | comment _ _ =>
          obtain ⟨rfl, opens⟩ := List.cons.inj later
          refine absurd ?_ (noComment rfl)
          rw [opens]
          rfl
  | comment _ _ =>
      obtain ⟨isSlash, _⟩ := List.cons.inj same
      contradiction

/-- The texts of tokens with what stands between them. -/
def spelled (source : String) : List Token → List Char
  | [] => []
  | [token] => token.text.toList
  | first :: second :: rest =>
      first.text.toList ++ (gapBetween source first second ++ spelled source (second :: rest))

section Tokens

variable {source : String}

/-- Tokens are spelled as the text is from the first of them to the last. -/
theorem stretch_eq_spelled
    {first last : Token}
    {rest : List Token}
    (areSlices : ∀ token ∈ first :: rest, token.IsSliceOf source.toList)
    (ordered : (first :: rest).Pairwise fun first second => first.Precedes second.toExcerpt)
    (isLast : (first :: rest).getLast? = some last) :
    stretch source first.start last.stop = spelled source (first :: rest) := by
  induction rest generalizing first with
  | nil =>
      obtain rfl : first = last := by simpa using isLast
      exact (areSlices first (List.mem_singleton_self first)).stretch_eq_text
  | cons second rest inductionHypothesis =>
      obtain ⟨firstSlice, restSlices⟩ := List.forall_mem_cons.mp areSlices
      obtain ⟨firstPrecedes, restOrdered⟩ := List.pairwise_cons.mp ordered
      rw [List.getLast?_cons_cons] at isLast
      have isFirst := firstSlice.first
      have isLong := firstSlice.ordered
      have follows := (firstPrecedes second List.mem_cons_self).2
      have reached : second.start ≤ last.stop := by
        have lastLong := (restSlices last (List.mem_of_mem_getLast? isLast)).ordered
        rcases List.mem_cons.mp (List.mem_of_mem_getLast? isLast) with rfl | later
        · rw [Excerpt.stop]
          omega
        · have precedes := ((List.pairwise_cons.mp restOrdered).1 last later).1
          rw [Excerpt.stop]
          omega
      have isStop : first.stop = first.start + first.length := rfl
      rw [spelled, ← inductionHypothesis restSlices restOrdered isLast,
        ← firstSlice.stretch_eq_text, gapBetween,
        ← stretch_append source (by omega) follows reached,
        ← stretch_append source isFirst (by omega) (by omega)]

/-- Joined tokens begin visibly when the first one does, and like it. -/
theorem beginsVisibly_joined
    {first : Token}
    (begins : BeginsVisibly first.text.toList)
    (rest : List Token) :
    BeginsVisibly (Token.joined (first :: rest)).toList ∧
      (Token.joined (first :: rest)).toList.head? = first.text.toList.head? := by
  cases rest with
  | nil =>
      rw [Value.toList_joined_singleton]
      exact ⟨begins, rfl⟩
  | cons second rest =>
      rw [Value.toList_joined_cons]
      exact ⟨begins.append_space _, List.head?_append_of_ne_nil _ begins.ne_nil⟩

/-- Spelled tokens begin like the first one. -/
theorem head?_spelled
    {first : Token}
    (begins : BeginsVisibly first.text.toList)
    (rest : List Token) :
    (spelled source (first :: rest)).head? = first.text.toList.head? := by
  cases rest with
  | nil =>
      rfl
  | cons second rest =>
      exact List.head?_append_of_ne_nil _ begins.ne_nil

/-- Tokens are joined in the way they are spelled just when one space stands between them. -/
theorem joined_eq_spelled_iff
    {tokens : List Token}
    (areVisible : ∀ token ∈ tokens, BeginsVisibly token.text.toList)
    (gaps : tokens.IsChain fun first second => Layout (gapBetween source first second)) :
    (Token.joined tokens).toList = spelled source tokens ↔
      tokens.IsChain fun first second => gapBetween source first second = [' '] := by
  induction tokens with
  | nil =>
      simp [Token.joined, spelled]
  | cons first rest inductionHypothesis =>
      cases rest with
      | nil =>
          simp [Value.toList_joined_singleton, spelled]
      | cons second rest =>
          obtain ⟨isGap, restGaps⟩ := List.isChain_cons_cons.mp gaps
          have restVisible := (List.forall_mem_cons.mp areVisible).2
          have restIff := inductionHypothesis restVisible restGaps
          rw [Value.toList_joined_cons, spelled, List.append_cancel_left_eq,
            List.isChain_cons_cons, ← restIff]
          constructor
          · intro same
            -- The first gap is the space in its place, and then the rests can be compared.
            have begins := restVisible second List.mem_cons_self
            obtain ⟨joinedBegins, joinedHead⟩ := beginsVisibly_joined begins rest
            have isSpace : gapBetween source first second = [' '] := by
              refine isGap.eq_space joinedBegins ?_ same
              rw [head?_spelled begins, joinedHead]
            rw [isSpace] at same
            exact ⟨isSpace, (List.cons.inj same).2⟩
          · rintro ⟨isSpace, same⟩
            rw [isSpace, same]
            rfl

end Tokens

/-- The tokens of a value stand next to each other, and form a value. -/
theorem Grammar.RulesForm.values_among
    {tokens : List Token}
    {rules : List Rule}
    {rule : Rule}
    {declaration : Declaration}
    (form : RulesForm tokens rules)
    (isRule : rule ∈ rules)
    (member : declaration ∈ rule.declarations) :
    ValuesForm declaration.values ∧ declaration.values <:+: tokens := by
  obtain ⟨before, own, behind, _, rfl, _, ruleForm⟩ := form.exists_rule isRule
  cases ruleForm with
  | @intro group block _ opening closing _ _ _ _ _ blockForm _ =>
      obtain ⟨leading, mine, trailing, rfl, declarationForm⟩ := blockForm.exists_declaration member
      cases declarationForm with
      | @intro name colon _ values importance _ _ _ valuesForm _ _ =>
          refine ⟨valuesForm, before ++ group ++ opening :: (leading ++ [name, colon]),
            importance ++ trailing ++ closing :: behind, ?_⟩
          simp

/-- A finding is about the value of a declaration of a text. -/
structure Diagnostic.IsAboutValue
    (diagnostic : Diagnostic)
    (source : String)
    (declaration : Declaration) :
    Prop where
  read : ∃ sheet, Sheet.ofSource source = .ok sheet ∧ declaration ∈ sheet.declarations
  found : Check.malformedValue? declaration = some diagnostic

/-- In a text, one space stands between each token of a value and the next. -/
def Declaration.SinglySpaced (declaration : Declaration) (source : String) : Prop :=
  declaration.values.IsChain fun first second => gapBetween source first second = [' ']

section Findings

variable {source : String}

/-- What the tokens of a value are like in the text that it is read from. -/
structure Declaration.ValueLaid (declaration : Declaration) (source : String) : Prop where
  slices : ∀ value ∈ declaration.values, value.IsSliceOf source.toList
  ordered : declaration.values.Pairwise fun first second => first.Precedes second.toExcerpt
  visible : ∀ value ∈ declaration.values, BeginsVisibly value.text.toList
  gaps : declaration.values.IsChain fun first second => Layout (gapBetween source first second)

/-- The value of every declaration of a sheet is laid out in its source. -/
theorem valueLaid_of_mem
    {sheet : Sheet}
    {declaration : Declaration}
    (isRead : Sheet.ofSource source = .ok sheet)
    (member : declaration ∈ sheet.declarations) :
    declaration.ValueLaid source := by
  obtain ⟨rule, isRule, inRule⟩ := List.mem_flatMap.mp member
  obtain ⟨valuesForm, isInfix⟩ := (ofSource_eq_ok.mp isRead).2.values_among isRule inRule
  have isPart : declaration.values.Sublist (tokenize source).tokens := by
    refine isInfix.sublist.trans ?_
    rw [tokens_placedPieces, tokens_tokenize]
    exact List.sublist_append_left _ _
  refine ⟨?_, ?_, ?_, ?_⟩
  · intro value isValue
    exact isSliceOf_of_mem_tokens (isPart.subset isValue)
  · exact pairwise_precedes_tokens.sublist isPart
  · intro value isValue
    refine beginsVisibly_of_mem_tokens (isInfix.subset isValue) ?_
    exact fun isCombinator => valuesForm.avoids value isValue (by simp [isCombinator])
  · have gaps := isChain_layout (ofSource_eq_ok_iff_ofTokens.mp isRead).1
    obtain ⟨before, behind, split⟩ := isInfix
    rw [← split] at gaps
    exact gaps.left_of_append.right_of_append

/-- At the place of a finding about a value stands what spells the value. -/
theorem Diagnostic.IsAboutValue.middle_eq_spelled
    {diagnostic : Diagnostic}
    {declaration : Declaration}
    (about : diagnostic.IsAboutValue source declaration) :
    (Context.ofExcerpt diagnostic.toExcerpt source.toList).middle =
      spelled source declaration.values := by
  obtain ⟨⟨sheet, isRead, member⟩, isFound⟩ := about
  obtain ⟨slices, ordered, _, _⟩ := valueLaid_of_mem isRead member
  obtain ⟨_, first, last, _, _, isFirst, isLast, rfl⟩ := Check.malformedValue?_eq_some.mp isFound
  obtain ⟨rest, areValues⟩ := List.head?_eq_some_iff.mp isFirst
  rw [areValues] at slices ordered isLast ⊢
  rw [← stretch_eq_spelled slices ordered isLast, stretch_eq]
  rfl

/-- The text of a finding about a value is that of the tokens of the value. -/
theorem Diagnostic.IsAboutValue.text_eq
    {diagnostic : Diagnostic}
    {declaration : Declaration}
    (about : diagnostic.IsAboutValue source declaration) :
    diagnostic.text = declaration.valueText := by
  obtain ⟨_, first, last, _, _, _, _, rfl⟩ := Check.malformedValue?_eq_some.mp about.found
  rfl

/-- A finding about a value quotes the source if the value is singly spaced there. -/
theorem Diagnostic.IsAboutValue.quotes_iff
    {diagnostic : Diagnostic}
    {declaration : Declaration}
    (about : diagnostic.IsAboutValue source declaration) :
    diagnostic.Quotes source.toList ↔ declaration.SinglySpaced source := by
  obtain ⟨sheet, isRead, member⟩ := about.read
  obtain ⟨_, _, visible, gaps⟩ := valueLaid_of_mem isRead member
  rw [Excerpt.Quotes, about.middle_eq_spelled, about.text_eq, Declaration.SinglySpaced]
  exact joined_eq_spelled_iff visible gaps

/-- A finding about the form of a text is a slice of it. -/
theorem isSliceOf_of_mem_formFindings
    {diagnostic : Diagnostic}
    (member : diagnostic ∈ formFindings source) :
    diagnostic.IsSliceOf source.toList := by
  rcases List.mem_append.mp member with isLexical | isSyntactic
  · exact (isSliceOf_of_mem_diagnostics isLexical).1
  · obtain ⟨token, isToken, isExcerpt⟩ := exists_token_of_mem_findings isSyntactic
    rw [isExcerpt]
    exact isSliceOf_of_mem_tokens isToken

/-- A finding of linting a text is a slice of it, unless it is about a value. -/
theorem isSliceOf_or_isAboutValue
    {file : String}
    {mode : Mode}
    {diagnostic : Diagnostic}
    (member : diagnostic ∈ (lint file source mode).diagnostics) :
    diagnostic.IsSliceOf source.toList ∨
      ∃ declaration, diagnostic.IsAboutValue source declaration := by
  rcases List.mem_append.mp member with isForm | isChecked
  · exact .inl (isSliceOf_of_mem_formFindings isForm)
  · obtain ⟨sheet, isSheet, isValidated⟩ := List.mem_flatMap.mp isChecked
    obtain ⟨check, _, isFound⟩ := List.mem_flatMap.mp isValidated
    have isRead := ofSource_of_checkedSheet? (Option.mem_toList.mp isSheet)
    rcases check.token_or_value_of_mem_run (ofSource_eq_ok.mp isRead).2 isFound with
      ⟨token, isToken, isExcerpt⟩ | ⟨declaration, isDeclaration, isMalformed⟩
    · rw [← tokensBeforeEnd_tokenize] at isToken
      rw [isExcerpt]
      exact .inl (isSliceOf_of_mem_tokens ((List.takeWhile_prefix _).subset isToken))
    · exact .inr ⟨declaration, ⟨sheet, isRead, isDeclaration⟩, isMalformed⟩

end Findings

/--
A finding quotes the text at its place, whatever it is about, unless it is about
a value whose tokens are spaced in another way than by one space each. The text
of such a finding is still that of the tokens of the value with one space
between them, and at its place stand the same tokens, with white space and
comments or nothing between them.
-/
theorem lint_quotes_iff
    {file source : String}
    {mode : Mode}
    {diagnostic : Diagnostic}
    (member : diagnostic ∈ (lint file source mode).diagnostics) :
    (diagnostic.Quotes source.toList ↔
        ∀ declaration,
          diagnostic.IsAboutValue source declaration → declaration.SinglySpaced source) ∧
      ∀ declaration,
        diagnostic.IsAboutValue source declaration →
          diagnostic.text = declaration.valueText ∧
            (Context.ofExcerpt diagnostic.toExcerpt source.toList).middle =
              spelled source declaration.values ∧
            declaration.values.IsChain fun first second =>
              Layout (gapBetween source first second) := by
  refine ⟨⟨?_, ?_⟩, ?_⟩
  · intro quotes declaration about
    exact about.quotes_iff.mp quotes
  · intro areSpaced
    rcases isSliceOf_or_isAboutValue member with isSlice | ⟨declaration, about⟩
    · exact isSlice.quotes
    · exact about.quotes_iff.mpr (areSpaced declaration about)
  · intro declaration about
    obtain ⟨sheet, isRead, isDeclaration⟩ := about.read
    exact ⟨about.text_eq, about.middle_eq_spelled, (valueLaid_of_mem isRead isDeclaration).gaps⟩

/-- The finding about a value of two lengths with a comma between them. -/
def commaFinding : Diagnostic where
  text := "1px , 2px"
  start := 9
  length := 7
  line := 1
  column := 10
  severity := .semantic
  message := "malformed value for property: margin"

/-- A comma without spaces around it is enough for a finding that does not quote. -/
theorem lint_quotes_iff_comma :
    commaFinding ∈ (lint "" "a\x7bmargin:1px,2px\x7d" .full).diagnostics ∧
      ∃ declaration,
        commaFinding.IsAboutValue "a\x7bmargin:1px,2px\x7d" declaration ∧
          ¬ declaration.SinglySpaced "a\x7bmargin:1px,2px\x7d" := by
  have isFound : commaFinding ∈ (lint "" "a\x7bmargin:1px,2px\x7d" .full).diagnostics := by
    decide +kernel
  have noQuote : ¬ commaFinding.Quotes "a\x7bmargin:1px,2px\x7d".toList := by
    decide +kernel
  refine ⟨isFound, ?_⟩
  rw [(lint_quotes_iff isFound).1] at noQuote
  simpa using noQuote

/-- Not every finding quotes the text at its place. -/
theorem not_forall_quotes :
    ¬ ∀ file source mode,
      ∀ diagnostic ∈ (lint file source mode).diagnostics, diagnostic.Quotes source.toList := by
  intro quotes
  refine absurd (quotes "" "a\x7bmargin:1px,2px\x7d" .full commaFinding ?_) ?_
  · decide +kernel
  · decide +kernel

end QtSheet

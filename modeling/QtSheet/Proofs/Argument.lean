import Mathlib.Data.List.Induction
import QtSheet.Proofs.Value.TokenTerms

namespace QtSheet

open Text
open Value (quotes)

/-!
# Quoted texts in the arguments of calls

Quoted text ends by one of two rules. As a string by itself it goes on behind a
mark with a backslash in front of it (`Quoting.escaped`); in the arguments of a
call it ends with the next mark, whatever is in front of that
(`Quoting.plain`). The two take the same stretch unless the next mark has an odd
number of backslashes in front of it (`cutString?_eq_iff`), and where this is so
nowhere in the arguments, the call ends where it would if its quoted texts were
strings (`Quoting.cutCall?_congr`).
-/

/-- A rule for the end of quoted text. -/
structure Quoting where
  /-- The rest of the text that a mark opens, with the mark that ends it. -/
  cut? : Char → List Char → Option Cut
  /-- Cutting quoted text loses nothing. -/
  whole : ∀ {mark text cut}, cut? mark text = some cut → cut.whole = text

/-- The rest of quoted text, up to the next mark. -/
def cutQuoted? (mark : Char) : List Char → Option Cut
  | [] => none
  | c :: rest => if c = mark then some ([c], rest) else (cutQuoted? mark rest).map (Cut.push c)

/-- Cutting quoted text loses nothing. -/
theorem whole_of_cutQuoted?
    {mark : Char}
    {text : List Char}
    {cut : Cut}
    (found : cutQuoted? mark text = some cut) :
    cut.whole = text := by
  fun_induction cutQuoted? mark text generalizing cut with
  | case1 =>
      contradiction
  | case2 rest =>
      obtain rfl := Option.some.inj found
      rfl
  | case3 c rest _ inductionHypothesis =>
      obtain ⟨tail, isTail, rfl⟩ := Option.map_eq_some_iff.mp found
      simp [inductionHypothesis isTail]

/-- Without a further mark quoted text has no end. -/
theorem cutQuoted?_of_notMem
    {mark : Char}
    {text : List Char}
    (noMark : mark ∉ text) :
    cutQuoted? mark text = none := by
  induction text with
  | nil =>
      rfl
  | cons c rest inductionHypothesis =>
      rw [List.mem_cons, not_or] at noMark
      rw [cutQuoted?, if_neg (Ne.symm noMark.1), inductionHypothesis noMark.2, Option.map_none]

/-- Quoted text ends with the next mark. -/
theorem cutQuoted?_append
    {mark : Char}
    {body : List Char}
    (noMark : mark ∉ body)
    (behind : List Char) :
    cutQuoted? mark (body ++ mark :: behind) = some (body ++ [mark], behind) := by
  induction body with
  | nil =>
      simp [cutQuoted?]
  | cons c rest inductionHypothesis =>
      rw [List.mem_cons, not_or] at noMark
      rw [List.cons_append, cutQuoted?, if_neg (Ne.symm noMark.1), inductionHypothesis noMark.2]
      rfl

namespace Quoting

/-- Quoted text ends with the next mark. -/
def plain : Quoting where
  cut? := cutQuoted?
  whole := whole_of_cutQuoted?

/-- Quoted text ends as a string does. -/
def escaped : Quoting where
  cut? := cutString?
  whole := whole_of_cutString?

end Quoting

/-- The number of backslashes at the end of a text, with some in front of it. -/
def slashesAfter (slashes : Nat) (text : List Char) : Nat :=
  text.foldl (fun slashes c => if c = '\\' then slashes + 1 else 0) slashes

/-- Whether the next mark has an odd number of backslashes in front of it. -/
def isMarkEscaped (mark : Char) (text : List Char) : Bool :=
  mark ∈ text && slashesAfter 0 (text.takeWhile (· != mark)) % 2 = 1

/-- Without a further mark a string has no end. -/
theorem cutString?_of_notMem
    {mark : Char}
    {text : List Char}
    (noMark : mark ∉ text) :
    cutString? mark text = none := by
  fun_induction cutString? mark text with
  | case1 =>
      rfl
  | case2 =>
      rfl
  | case3 next rest inductionHypothesis =>
      simp only [List.mem_cons, not_or] at noMark
      rw [inductionHypothesis noMark.2.2, Option.map_none]
  | case4 c rest =>
      simp at noMark
  | case5 c rest _ _ inductionHypothesis =>
      simp only [List.mem_cons, not_or] at noMark
      rw [inductionHypothesis noMark.2, Option.map_none]

/-- A string takes its last mark at least. -/
theorem ne_nil_of_cutString?
    {mark : Char}
    {text : List Char}
    {cut : Cut}
    (found : cutString? mark text = some cut) :
    cut.1 ≠ [] := by
  fun_induction cutString? mark text with
  | case1 =>
      contradiction
  | case2 =>
      contradiction
  | case3 =>
      obtain ⟨_, _, rfl⟩ := Option.map_eq_some_iff.mp found
      simp [Cut.push]
  | case4 =>
      obtain rfl := Option.some.inj found
      simp
  | case5 =>
      obtain ⟨_, _, rfl⟩ := Option.map_eq_some_iff.mp found
      simp [Cut.push]

/-- A string ends with a mark in front of it. -/
theorem cutString?_mark
    {mark : Char}
    (noSlash : mark ≠ '\\')
    (rest : List Char) :
    cutString? mark (mark :: rest) = some ([mark], rest) := by
  rw [cutString?.eq_def]
  simp [noSlash]

/-- A character that is no mark and no backslash belongs to a string. -/
theorem cutString?_cons
    {mark c : Char}
    (noSlash : c ≠ '\\')
    (noMark : c ≠ mark)
    (rest : List Char) :
    cutString? mark (c :: rest) = (cutString? mark rest).map (Cut.push c) := by
  rw [cutString?.eq_def]
  simp [noSlash, noMark]

/-- A string goes on behind a mark if an odd number of backslashes stands in front of it. -/
theorem cutString?_append
    {mark : Char}
    {body : List Char}
    {slashes : Nat}
    (noSlash : mark ≠ '\\')
    (noMark : mark ∉ body)
    (isEven : slashes % 2 = 0)
    (behind : List Char) :
    cutString? mark (body ++ mark :: behind) =
      if slashesAfter slashes body % 2 = 0 then
        some (body ++ [mark], behind)
      else
        (cutString? mark behind).map fun cut => (body ++ mark :: cut.1, cut.2) := by
  -- Two characters at a time, since a backslash and the character behind it are one step.
  induction body using List.twoStepInduction generalizing slashes with
  | nil =>
      rw [slashesAfter, List.foldl_nil, if_pos isEven, List.nil_append, cutString?_mark noSlash]
      rfl
  | singleton c =>
      by_cases isSlash : c = '\\'
      · subst isSlash
        have isOdd : ¬ (slashes + 1) % 2 = 0 := by omega
        simp [cutString?, slashesAfter, isOdd, Cut.push]
      · rw [List.singleton_append, cutString?_cons isSlash (by simpa [eq_comm] using noMark),
          cutString?_mark noSlash]
        simp [slashesAfter, isSlash, Cut.push]
  | cons_cons c next rest inductionHypothesis inductionHypothesisNext =>
      simp only [List.mem_cons, not_or] at noMark
      by_cases isSlash : c = '\\'
      · subst isSlash
        have goesOn : slashesAfter slashes ('\\' :: next :: rest) =
            slashesAfter (if next = '\\' then slashes + 2 else 0) rest := by
          simp [slashesAfter]
        have isNextEven : (if next = '\\' then slashes + 2 else 0) % 2 = 0 := by
          split <;> omega
        generalize (if next = '\\' then slashes + 2 else 0) = after at goesOn isNextEven
        rw [goesOn, List.cons_append, List.cons_append, cutString?, if_pos rfl,
          inductionHypothesis noMark.2.2 isNextEven]
        split <;> simp [Cut.push, Function.comp_def]
      · have goesOn : slashesAfter slashes (c :: next :: rest) = slashesAfter 0 (next :: rest) := by
          simp [slashesAfter, isSlash]
        rw [goesOn, List.cons_append, cutString?_cons isSlash (Ne.symm noMark.1),
          inductionHypothesisNext next (by simp [noMark]) (Nat.zero_mod 2)]
        split <;> simp [Cut.push, Function.comp_def]

/-- A string and quoted text in arguments end with the same mark unless the next one is escaped. -/
theorem cutString?_eq_iff
    {mark : Char}
    (noSlash : mark ≠ '\\')
    (text : List Char) :
    cutQuoted? mark text = cutString? mark text ↔ isMarkEscaped mark text = false := by
  by_cases someMark : mark ∈ text
  · obtain ⟨body, behind, rfl, noMark⟩ := List.eq_append_cons_of_mem someMark
    have isBody : (body ++ mark :: behind).takeWhile (· != mark) = body := by
      rw [List.takeWhile_append_of_pos, List.takeWhile_cons_of_neg (by simp), List.append_nil]
      intro c member
      exact bne_iff_ne.mpr fun isMark => noMark (isMark ▸ member)
    rw [cutQuoted?_append noMark, cutString?_append noSlash noMark (Nat.zero_mod 2), isMarkEscaped,
      isBody]
    by_cases isEven : slashesAfter 0 body % 2 = 0
    · simp [isEven]
    · rw [if_neg isEven]
      refine iff_of_false ?_ (by simpa using isEven)
      -- What the string takes goes on behind the mark.
      intro same
      obtain ⟨cut, isString, isCut⟩ := Option.map_eq_some_iff.mp same.symm
      exact ne_nil_of_cutString? isString (by simpa using congrArg Prod.fst isCut)
  · rw [cutQuoted?_of_notMem someMark, cutString?_of_notMem someMark]
    simp [isMarkEscaped, someMark]

namespace Quoting

variable (quoting : Quoting)

/-- What is behind quoted text is no longer than the text. -/
theorem length_of_cut?
    {mark : Char}
    {text : List Char}
    {cut : Cut}
    (found : quoting.cut? mark text = some cut) :
    cut.2.length ≤ text.length := by
  rw [← quoting.whole found, Cut.whole, List.length_append]
  omega

/-- The rest of a call, up to the parenthesis that closes it, when quoted text ends by a rule. -/
def cutCall? (nested : Nat) : List Char → Option Cut
  | [] => none
  | c :: rest =>
      if c ∈ quotes then
        match _quoted : quoting.cut? c rest with
        | none => none
        | some quoted =>
            (cutCall? nested quoted.2).map fun cut => (c :: (quoted.1 ++ cut.1), cut.2)
      else if c = '(' then
        (cutCall? (nested + 1) rest).map (Cut.push c)
      else if c = ')' then
        match nested with
        | 0 => some ([c], rest)
        | nested + 1 => (cutCall? nested rest).map (Cut.push c)
      else
        (cutCall? nested rest).map (Cut.push c)
termination_by text => text.length
decreasing_by
  · exact Nat.lt_succ_of_le (quoting.length_of_cut? _quoted)
  all_goals simp

@[simp] theorem cutCall?_nil (nested : Nat) : quoting.cutCall? nested [] = none := by
  rw [cutCall?]

/-- Quoted text in arguments is passed over as a whole. -/
theorem cutCall?_quote
    (nested : Nat)
    {mark : Char}
    (isMark : mark ∈ quotes)
    (rest : List Char) :
    quoting.cutCall? nested (mark :: rest) =
      (quoting.cut? mark rest).bind fun quoted =>
        (quoting.cutCall? nested quoted.2).map fun cut => (mark :: (quoted.1 ++ cut.1), cut.2) := by
  rw [cutCall?.eq_def]
  dsimp only
  rw [if_pos isMark]
  split <;> simp_all

/-- A parenthesis in arguments opens another level. -/
theorem cutCall?_open (nested : Nat) (rest : List Char) :
    quoting.cutCall? nested ('(' :: rest) =
      (quoting.cutCall? (nested + 1) rest).map (Cut.push '(') := by
  rw [cutCall?.eq_def]
  simp [quotes]

/-- The parenthesis of the call itself ends the arguments. -/
theorem cutCall?_last (rest : List Char) :
    quoting.cutCall? 0 (')' :: rest) = some ([')'], rest) := by
  rw [cutCall?.eq_def]
  simp [quotes]

/-- A parenthesis in arguments closes a level. -/
theorem cutCall?_close (nested : Nat) (rest : List Char) :
    quoting.cutCall? (nested + 1) (')' :: rest) =
      (quoting.cutCall? nested rest).map (Cut.push ')') := by
  rw [cutCall?.eq_def]
  simp [quotes]

/-- Any other character belongs to the arguments. -/
theorem cutCall?_other
    (nested : Nat)
    {c : Char}
    (notMark : c ∉ quotes)
    (notOpen : c ≠ '(')
    (notClose : c ≠ ')')
    (rest : List Char) :
    quoting.cutCall? nested (c :: rest) = (quoting.cutCall? nested rest).map (Cut.push c) := by
  rw [cutCall?.eq_def]
  simp [notMark, notOpen, notClose]

/-- The marks that open quoted text in a call, each with the text behind it. -/
def met (nested : Nat) : List Char → List (Char × List Char)
  | [] => []
  | c :: rest =>
      if c ∈ quotes then
        match _quoted : quoting.cut? c rest with
        | none => [(c, rest)]
        | some quoted => (c, rest) :: met nested quoted.2
      else if c = '(' then
        met (nested + 1) rest
      else if c = ')' then
        match nested with
        | 0 => []
        | nested + 1 => met nested rest
      else
        met nested rest
termination_by text => text.length
decreasing_by
  · exact Nat.lt_succ_of_le (quoting.length_of_cut? _quoted)
  all_goals simp

/-- Only quote marks are met in arguments. -/
theorem mem_quotes_of_mem_met
    {nested : Nat}
    {text : List Char}
    {quote : Char × List Char}
    (isMet : quote ∈ quoting.met nested text) :
    quote.1 ∈ quotes := by
  fun_induction quoting.met nested text with
  | case1 =>
      contradiction
  | case2 nested c rest isMark found =>
      rw [List.mem_singleton.mp isMet]
      exact isMark
  | case3 nested c rest isMark quoted found inductionHypothesis =>
      rcases List.mem_cons.mp isMet with rfl | isLater
      · exact isMark
      · exact inductionHypothesis isLater
  | case4 nested rest _ inductionHypothesis =>
      exact inductionHypothesis isMet
  | case5 =>
      contradiction
  | case6 rest nested _ _ inductionHypothesis =>
      exact inductionHypothesis isMet
  | case7 nested c rest _ _ _ inductionHypothesis =>
      exact inductionHypothesis isMet

/-- Rules that agree on the quoted texts of a call end it at the same place. -/
theorem cutCall?_congr
    {one other : Quoting}
    {nested : Nat}
    {text : List Char}
    (agree : ∀ quote ∈ one.met nested text, one.cut? quote.1 quote.2 = other.cut? quote.1 quote.2) :
    one.cutCall? nested text = other.cutCall? nested text := by
  fun_induction one.met nested text with
  | case1 =>
      simp
  | case2 nested c rest isMark found =>
      have same : none = other.cut? c rest := found ▸ agree (c, rest) (by simp)
      rw [one.cutCall?_quote nested isMark, other.cutCall?_quote nested isMark, found, ← same]
      rfl
  | case3 nested c rest isMark quoted found inductionHypothesis =>
      rw [List.forall_mem_cons] at agree
      have same : some quoted = other.cut? c rest := found ▸ agree.1
      rw [one.cutCall?_quote nested isMark, other.cutCall?_quote nested isMark, found, ← same,
        Option.bind_some, Option.bind_some, inductionHypothesis agree.2]
  | case4 nested rest _ inductionHypothesis =>
      rw [cutCall?_open, cutCall?_open, inductionHypothesis agree]
  | case5 rest =>
      rw [cutCall?_last, cutCall?_last]
  | case6 rest nested _ _ inductionHypothesis =>
      rw [cutCall?_close, cutCall?_close, inductionHypothesis agree]
  | case7 nested c rest notMark notOpen notClose inductionHypothesis =>
      rw [one.cutCall?_other nested notMark notOpen notClose,
        other.cutCall?_other nested notMark notOpen notClose, inductionHypothesis agree]

end Quoting

/-- Inside of marks a call goes on with the end of the quoted text. -/
theorem cutCall?_some (nested : Nat) (mark : Char) (text : List Char) :
    cutCall? nested (some mark) text =
      (cutQuoted? mark text).bind fun quoted =>
        (cutCall? nested none quoted.2).map fun cut => (quoted.1 ++ cut.1, cut.2) := by
  induction text with
  | nil =>
      simp [cutCall?, cutQuoted?]
  | cons c rest inductionHypothesis =>
      rw [cutCall?, cutQuoted?]
      split
      · rfl
      · rw [inductionHypothesis]
        simp [Option.map_bind, Option.bind_map, Function.comp_def, Cut.push]

theorem cutCall?_mark
    (nested : Nat)
    {mark : Char}
    (isMark : mark ∈ quotes)
    (rest : List Char) :
    cutCall? nested none (mark :: rest) =
      (cutQuoted? mark rest).bind fun quoted =>
        (cutCall? nested none quoted.2).map fun cut => (mark :: (quoted.1 ++ cut.1), cut.2) := by
  have opens : (mark = '"' || mark = '\x27') = true := by simpa [quotes] using isMark
  rw [cutCall?.eq_def]
  simp [opens, cutCall?_some, Option.map_bind, Function.comp_def, Cut.push]

/-- In the arguments of a call quoted text ends with the next mark. -/
theorem cutCall?_eq_plain (nested : Nat) (text : List Char) :
    cutCall? nested none text = Quoting.plain.cutCall? nested text := by
  fun_induction Quoting.plain.cutCall? nested text with
  | case1 =>
      simp [cutCall?]
  | case2 nested c rest isMark found =>
      change cutQuoted? c rest = none at found
      rw [cutCall?_mark nested isMark, found, Option.bind_none]
  | case3 nested c rest isMark quoted found inductionHypothesis =>
      change cutQuoted? c rest = some quoted at found
      rw [cutCall?_mark nested isMark, found, Option.bind_some, inductionHypothesis]
  | case4 nested rest _ inductionHypothesis =>
      simp [cutCall?, inductionHypothesis]
  | case5 rest =>
      simp [cutCall?]
  | case6 rest nested _ _ inductionHypothesis =>
      simp [cutCall?, inductionHypothesis]
  | case7 nested c rest notMark notOpen notClose inductionHypothesis =>
      simp only [quotes, List.mem_cons, List.not_mem_nil, or_false, not_or] at notMark
      simp [cutCall?, notMark, notOpen, notClose, inductionHypothesis]

/-- A name inside of braces with a parenthesis behind it, where a piece of a text begins. -/
structure CallSite (source : String) where
  before : List Piece
  piece : Piece
  behind : List Piece
  name : List Char
  inside : List Char
  split : pieces 0 source.toList = before ++ piece :: behind
  isInside : depthAfter 0 before ≠ 0
  isName : cutName? ((piece :: behind).flatMap Piece.text) = some (name, '(' :: inside)

namespace CallSite

variable {source : String} (site : CallSite source)

/-- Where a call begins. -/
def start : Nat :=
  (site.before.flatMap Piece.text).length

/-- Whether a call is a reference. -/
def isUrl : Bool :=
  lowercase (String.ofList site.name) = "url"

/--
What becomes of a call when quoted text in its arguments ends by a rule: a token
up to the parenthesis that closes it, or else a finding.
-/
def IsReadBy (quoting : Quoting) : Prop :=
  match quoting.cutCall? 0 site.inside with
  | some cut =>
      ∃ token ∈ (tokenize source).tokens,
        token.kind = (if site.isUrl then .url else .function) ∧
          token.start = site.start ∧
          token.text = String.ofList (site.name ++ '(' :: cut.1)
  | none =>
      ∃ finding ∈ (tokenize source).diagnostics,
        finding.message =
            "unterminated " ++ (if site.isUrl then Construct.url else .functionCall).label ∧
          finding.start = site.start ∧
          finding.text = String.ofList (site.name ++ '(' :: site.inside)

/-- A name begins neither a gap nor a string, nor is it a mark. -/
theorem isWordStart_of_cutName?
    {c : Char}
    {rest : List Char}
    {cut : Cut}
    (isName : cutName? (c :: rest) = some cut) :
    IsWordStart c rest := by
  obtain ⟨whole, nonempty⟩ := whole_of_cutName? isName
  obtain ⟨first, others, isCut⟩ := List.exists_cons_of_ne_nil nonempty
  obtain ⟨rfl, _⟩ : first = c ∧ others ++ cut.2 = rest := by simpa [Cut.whole, isCut] using whole
  have isFirst : isNameCharacter first = true :=
    Value.isNameCharacter_of_cutName? isName first (by simp [isCut])
  refine ⟨Value.isLayout_eq_false_of_isNameCharacter isFirst, ?_, ?_, ?_⟩
  · rintro rfl
    exact absurd isFirst (by decide)
  · rintro (rfl | rfl) <;> exact absurd isFirst (by decide)
  · refine Option.eq_none_iff_forall_ne_some.mpr fun kind isMark => ?_
    have areNoNames : markKinds.all fun mark => isNameCharacter mark.1 = false := by decide
    have noName := List.all_eq_true.mp areNoNames _ (mem_markKinds isMark)
    simp [isFirst] at noName

/-- The piece of a call is a token, or a construct without its end. -/
theorem piece_eq :
    site.piece =
      match Quoting.plain.cutCall? 0 site.inside with
      | some cut => .token (if site.isUrl then .url else .function) (site.name ++ '(' :: cut.1)
      | none =>
          .unterminated (if site.isUrl then .url else .functionCall)
            (site.name ++ '(' :: site.inside) := by
  have whole : source.toList =
      site.before.flatMap Piece.text ++ (site.piece :: site.behind).flatMap Piece.text := by
    rw [← List.flatMap_append, ← site.split, text_pieces]
  have isCut := (eq_pieces_of_append site.split whole).symm
  have isName := site.isName
  rw [List.flatMap_cons] at isCut isName
  obtain ⟨c, word, isText, found, _⟩ := exists_nextPiece_of_pieces isCut
  rw [isText, List.cons_append] at isName
  have isStart := isWordStart_of_cutName? isName
  rw [← cutCall?_eq_plain]
  cases isCall : cutCall? 0 none site.inside with
  | some cut =>
      have isToken := (NextPiece.call isStart site.isInside isName isCall).eq
      rw [found] at isToken
      simpa [isUrl] using congrArg Prod.fst isToken
  | none =>
      have isFinding := (NextPiece.openCall isStart site.isInside isName isCall).eq
      rw [found] at isFinding
      simpa [isUrl] using congrArg Prod.fst isFinding

/-- The call stands behind the pieces before it. -/
theorem placedPieces_eq :
    placedPieces source.toList =
      place Position.first site.before ++
        ⟨Position.first.after (site.before.flatMap Piece.text), site.piece⟩ ::
          place ((Position.first.after (site.before.flatMap Piece.text)).after site.piece.text)
            site.behind := by
  rw [placedPieces, site.split, place_append, place]

/-- In every call quoted text ends with the next mark. -/
theorem isReadBy_plain : site.IsReadBy .plain := by
  have isPiece := site.piece_eq
  unfold IsReadBy
  split
  case h_1 cut isCall =>
    rw [isCall] at isPiece
    refine ⟨⟨.ofPosition (Position.first.after (site.before.flatMap Piece.text))
      (site.name ++ '(' :: cut.1), if site.isUrl then .url else .function⟩, ?_, rfl, ?_, rfl⟩
    · rw [tokenize, site.placedPieces_eq, Joint.tokens_append, Joint.tokens, Joint.emitted]
      simp [isPiece, PlacedPiece.excerpt, Piece.text]
    · simp [Excerpt.ofPosition, start, Position.first]
  case h_2 isOpen =>
    rw [isOpen] at isPiece
    refine ⟨⟨.ofPosition (Position.first.after (site.before.flatMap Piece.text))
      (site.name ++ '(' :: site.inside), .lexical, _⟩, ?_, rfl, ?_, rfl⟩
    · rw [tokenize, site.placedPieces_eq, List.filterMap_append, List.filterMap_cons]
      simp [isPiece, PlacedPiece.diagnostic?, PlacedPiece.excerpt, Piece.text]
    · simp [Excerpt.ofPosition, start, Position.first]

/--
In the arguments of every call quoted text is skipped up to the next mark, and
parentheses and other marks in it do not count. This is the text that a string
would take unless the mark has an odd number of backslashes in front of it. So a
call in which no such mark is met is the token, or the construct without its end,
that it is when quoted texts are strings.
-/
theorem reads_quoted_text :
    site.IsReadBy .plain ∧
      (∀ mark rest, (mark, rest) ∈ Quoting.plain.met 0 site.inside →
        (cutQuoted? mark rest = cutString? mark rest ↔ isMarkEscaped mark rest = false)) ∧
      ((∀ mark rest, (mark, rest) ∈ Quoting.plain.met 0 site.inside →
          isMarkEscaped mark rest = false) →
        site.IsReadBy .escaped) := by
  have agree :
      ∀ mark rest, (mark, rest) ∈ Quoting.plain.met 0 site.inside →
        (cutQuoted? mark rest = cutString? mark rest ↔ isMarkEscaped mark rest = false) := by
    intro mark rest isMet
    have isMark : mark ∈ quotes := Quoting.plain.mem_quotes_of_mem_met isMet
    refine cutString?_eq_iff ?_ rest
    rintro rfl
    exact absurd isMark (by decide)
  refine ⟨site.isReadBy_plain, agree, fun noneEscaped => ?_⟩
  have sameCall : Quoting.plain.cutCall? 0 site.inside = Quoting.escaped.cutCall? 0 site.inside :=
    Quoting.cutCall?_congr fun quote isMet =>
      (agree quote.1 quote.2 isMet).mpr (noneEscaped quote.1 quote.2 isMet)
  have isRead := site.isReadBy_plain
  unfold IsReadBy at isRead ⊢
  rwa [sameCall] at isRead

end CallSite

/-- A parenthesis in quotation marks, and an escaped backslash in front of a mark. -/
theorem reads_quoted_text_parenthesis :
    ∃ site : CallSite "a\x7bb:url(\")\" ('\\\\'))\x7d",
      site.inside = "\")\" ('\\\\'))\x7d".toList ∧
        Quoting.escaped.cutCall? 0 site.inside = some ("\")\" ('\\\\'))".toList, ['\x7d']) ∧
        site.IsReadBy .escaped := by
  let site : CallSite "a\x7bb:url(\")\" ('\\\\'))\x7d" :=
    { before :=
        [.token .identifier ['a'], .token .openBrace ['\x7b'], .token .identifier ['b'],
          .token .propertySeparator [':']]
      piece := .token .url "url(\")\" ('\\\\'))".toList
      behind := [.token .closeBrace ['\x7d']]
      name := ['u', 'r', 'l']
      inside := "\")\" ('\\\\'))\x7d".toList
      split := by decide +kernel
      isInside := by decide
      isName := by decide +kernel }
  refine ⟨site, rfl, by decide +kernel, site.reads_quoted_text.2.2 ?_⟩
  have noneEscaped :
      (Quoting.plain.met 0 site.inside).all fun quote => !isMarkEscaped quote.1 quote.2 := by
    decide +kernel
  intro mark rest isMet
  simpa using List.all_eq_true.mp noneEscaped _ isMet

/--
Quoted text in a call need not be what a string would take: behind an escaped
mark the call goes on outside of marks, and the next mark opens text that is not
closed.
-/
theorem not_forall_quoted_alike :
    (¬ ∀ (source : String) (site : CallSite source) (mark : Char) (rest : List Char),
        (mark, rest) ∈ Quoting.plain.met 0 site.inside →
        cutQuoted? mark rest = cutString? mark rest) ∧
      ¬ ∀ (source : String) (site : CallSite source), site.IsReadBy .escaped := by
  let site : CallSite "a\x7bb:f(\"\\\"\")\x7d" :=
    { before :=
        [.token .identifier ['a'], .token .openBrace ['\x7b'], .token .identifier ['b'],
          .token .propertySeparator [':']]
      piece := .unterminated .functionCall "f(\"\\\"\")\x7d".toList
      behind := []
      name := ['f']
      inside := "\"\\\"\")\x7d".toList
      split := by decide +kernel
      isInside := by decide
      isName := by decide +kernel }
  constructor
  · intro alike
    have same := alike _ site '"' "\\\"\")\x7d".toList (by decide +kernel)
    exact absurd same (by decide)
  · intro isString
    have isCall : Quoting.escaped.cutCall? 0 site.inside = some ("\"\\\"\")".toList, ['\x7d']) := by
      decide +kernel
    have isRead := isString _ site
    unfold CallSite.IsReadBy at isRead
    rw [isCall] at isRead
    obtain ⟨token, isToken, isKind, _⟩ := isRead
    have noCall :
        (tokenize "a\x7bb:f(\"\\\"\")\x7d").tokens.all fun token =>
          token.kind ≠ .url ∧ token.kind ≠ .function := by
      decide +kernel
    have notCall := of_decide_eq_true (List.all_eq_true.mp noCall token isToken)
    rw [isKind] at notCall
    split at notCall <;> simp at notCall

end QtSheet

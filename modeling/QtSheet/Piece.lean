import QtSheet.Diagnostic
import QtSheet.Text.Blank
import QtSheet.Text.Lowercase
import QtSheet.Text.Word

namespace QtSheet

/-!
# Pieces

The text of a style sheet is a sequence of pieces: gaps (white space and
comments), tokens, stray characters that begin no token, and at most one
construct that is opened and never closed, which takes the rest of the text.
The pieces put together are the text (`text_pieces`).

Which tokens there are depends on the number of braces open. Outside of all
braces stand selectors, inside of them declarations.
-/

open Text

/-- A construct that has an end of its own. -/
inductive Construct where
  | comment
  | string
  | url
  | functionCall
  deriving Repr, DecidableEq

/-- How a construct is named in a message. -/
def Construct.label : Construct → String
  | .comment => "comment"
  | .string => "string"
  | .url => "url"
  | .functionCall => "function call"

/-- One piece of the text of a style sheet. -/
inductive Piece where
  /-- A stretch of white space, or a comment. -/
  | gap (text : List Char)
  /-- A token. -/
  | token (kind : Kind) (text : List Char)
  /-- A character that begins no token. -/
  | stray (character : Char)
  /-- A construct without its end. -/
  | unterminated (construct : Construct) (text : List Char)
  deriving Repr, DecidableEq

namespace Piece

/-- The characters of a piece. -/
def text : Piece → List Char
  | .gap text => text
  | .token _ text => text
  | .stray character => [character]
  | .unterminated _ text => text

/--
The number of open braces after a piece. A closing brace without an opening one
counts for nothing.
-/
def depthAfter (depth : Nat) : Piece → Nat
  | .token .openBrace _ => depth + 1
  | .token .closeBrace _ => depth - 1
  | _ => depth

end Piece

/-- A piece and the text after it. -/
abbrev PieceCut := Piece × List Char

/-- The characters of a piece and of the text after it. -/
def PieceCut.whole (cut : PieceCut) : List Char :=
  cut.1.text ++ cut.2

/-- A token made of what a splitter has taken. -/
def tokenCut (kind : Kind) (cut : Cut) : PieceCut :=
  (.token kind cut.1, cut.2)

/-- The rest of a comment, up to the first `*/`. -/
def cutComment? : List Char → Option Cut
  | [] => none
  | '*' :: '/' :: rest => some (['*', '/'], rest)
  | c :: rest => (cutComment? rest).map (Cut.push c)

/--
The rest of a string, up to the mark that opened it. A backslash keeps the next
character from ending it.
-/
def cutString? (mark : Char) : List Char → Option Cut
  | [] => none
  | c :: rest =>
      if c = '\\' then
        match rest with
        | [] => none
        | next :: rest => (cutString? mark rest).map fun cut => (cut.push next).push c
      else if c = mark then
        some ([c], rest)
      else
        (cutString? mark rest).map (Cut.push c)

/--
The rest of a function call, up to the parenthesis that closes it. `nested`
parentheses are open besides the call's own, and inside of quotation marks,
`mark?`, parentheses do not count.
-/
def cutCall? : Nat → Option Char → List Char → Option Cut
  | _, _, [] => none
  | nested, some mark, c :: rest =>
      (cutCall? nested (if c = mark then none else some mark) rest).map (Cut.push c)
  | nested, none, c :: rest =>
      if c = '"' || c = '\x27' then
        (cutCall? nested (some c) rest).map (Cut.push c)
      else if c = '(' then
        (cutCall? (nested + 1) none rest).map (Cut.push c)
      else if c = ')' then
        match nested with
        | 0 => some ([c], rest)
        | nested + 1 => (cutCall? nested none rest).map (Cut.push c)
      else
        (cutCall? nested none rest).map (Cut.push c)

/-- A sign that is a token by itself in selectors, when it begins no longer token. -/
def selectorSign? (c : Char) : Option Kind :=
  match c with
  | ':' => some .colon
  | '.' => some .dot
  | '*' => some .star
  | '=' => some .attributeOperator
  | '>' => some .combinator
  | '+' => some .combinator
  | '~' => some .combinator
  | '[' => some .openBracket
  | ']' => some .closeBracket
  | _ => none

/-- A pair of signs that is one token in selectors. -/
def selectorPair? (first second : Char) : Option Kind :=
  match first, second with
  | ':', ':' => some .doubleColon
  | '~', '=' => some .attributeOperator
  | '|', '=' => some .attributeOperator
  | _, _ => none

/-- The token of two signs or of one sign at the front of a selector, or else a stray character. -/
def signPiece (c : Char) (rest : List Char) : PieceCut :=
  match rest.head?.bind (selectorPair? c) with
  | some kind => (.token kind (c :: rest.take 1), rest.drop 1)
  | none =>
      match selectorSign? c with
      | some kind => (.token kind [c], rest)
      | none => (.stray c, rest)

/-- The piece at the front of a text outside of all braces. -/
def selectorPiece (c : Char) (rest : List Char) : PieceCut :=
  match cutName? (c :: rest) with
  | some name => tokenCut .identifier name
  | none =>
      match cutHash? (c :: rest) with
      | some hash => tokenCut .hash hash
      | none =>
          match (if isDecimalDigit c then cutNumber? (c :: rest) else none) with
          | some number => tokenCut .number number
          | none => signPiece c rest

/-- A name inside of braces, which is a function call when a parenthesis follows. -/
def wordPiece (name : Cut) : PieceCut :=
  match name.2 with
  | '(' :: rest =>
      let isUrl := lowercase (String.ofList name.1) = "url"
      match cutCall? 0 none rest with
      | some call =>
          (.token (if isUrl then .url else .function) (name.1 ++ '(' :: call.1), call.2)
      | none =>
          (.unterminated (if isUrl then .url else .functionCall) (name.1 ++ '(' :: rest), [])
  | _ => tokenCut .identifier name

/-- The piece at the front of a text inside of braces. -/
def declarationPiece (c : Char) (rest : List Char) : PieceCut :=
  match cutName? (c :: rest) with
  | some name => wordPiece name
  | none =>
      match cutNumber? (c :: rest) with
      | some number => tokenCut .number number
      | none =>
          match cutHash? (c :: rest) with
          | some hash => tokenCut .color hash
          | none =>
              if c = ':' then
                (.token .propertySeparator [c], rest)
              else if c = '/' then
                (.token .slash [c], rest)
              else
                (.stray c, rest)

/-- A character that is a token by itself everywhere. -/
def mark? (c : Char) : Option Kind :=
  match c with
  | '\x7b' => some .openBrace
  | '\x7d' => some .closeBrace
  | ';' => some .semicolon
  | ',' => some .comma
  | '!' => some .exclamation
  | _ => none

/-- The comment that begins with the given two characters, if they open one. -/
def commentPiece? (c : Char) (rest : List Char) : Option PieceCut :=
  if c = '/' && rest.head? = some '*' then
    match cutComment? (rest.drop 1) with
    | some comment => some (.gap (c :: rest.take 1 ++ comment.1), comment.2)
    | none => some (.unterminated .comment (c :: rest), [])
  else
    none

/-- The string that the given mark opens. -/
def stringPiece (mark : Char) (rest : List Char) : PieceCut :=
  match cutString? mark rest with
  | some string => (.token .string (mark :: string.1), string.2)
  | none => (.unterminated .string (mark :: rest), [])

/-- The piece at the front of a text, with a number of braces open. -/
def nextPiece (depth : Nat) (c : Char) (rest : List Char) : PieceCut :=
  if isLayout c then
    (.gap (c :: rest.takeWhile isLayout), rest.dropWhile isLayout)
  else
    match commentPiece? c rest with
    | some cut => cut
    | none =>
        if c = '"' || c = '\x27' then
          stringPiece c rest
        else
          match mark? c with
          | some kind => (.token kind [c], rest)
          | none =>
              if depth = 0 then
                selectorPiece c rest
              else
                declarationPiece c rest

/-- What is cut with a character in front is the character and what is cut behind it. -/
theorem whole_of_map_push
    {c : Char}
    {text : List Char}
    {cut? : Option Cut}
    {cut : Cut}
    (wholeBehind : ∀ {behind : Cut}, cut? = some behind → behind.whole = text)
    (found : cut?.map (Cut.push c) = some cut) :
    cut.whole = c :: text := by
  obtain ⟨behind, isBehind, rfl⟩ := Option.map_eq_some_iff.mp found
  simp [wholeBehind isBehind]

/-- Cutting a comment loses nothing. -/
theorem whole_of_cutComment?
    {text : List Char}
    {cut : Cut}
    (found : cutComment? text = some cut) :
    cut.whole = text := by
  fun_induction cutComment? text generalizing cut with
  | case1 =>
      contradiction
  | case2 rest =>
      obtain rfl := Option.some.inj found
      rfl
  | case3 c rest _ inductionHypothesis =>
      exact whole_of_map_push inductionHypothesis found

/-- Cutting a string loses nothing. -/
theorem whole_of_cutString?
    {mark : Char}
    {text : List Char}
    {cut : Cut}
    (found : cutString? mark text = some cut) :
    cut.whole = text := by
  fun_induction cutString? mark text generalizing cut with
  | case1 =>
      contradiction
  | case2 =>
      contradiction
  | case3 next rest inductionHypothesis =>
      obtain ⟨tail, isTail, rfl⟩ := Option.map_eq_some_iff.mp found
      simp [inductionHypothesis isTail]
  | case4 c rest =>
      obtain rfl := Option.some.inj found
      rfl
  | case5 c rest _ _ inductionHypothesis =>
      exact whole_of_map_push inductionHypothesis found

/-- Cutting a function call loses nothing. -/
theorem whole_of_cutCall?
    {nested : Nat}
    {mark? : Option Char}
    {text : List Char}
    {cut : Cut}
    (found : cutCall? nested mark? text = some cut) :
    cut.whole = text := by
  fun_induction cutCall? nested mark? text generalizing cut with
  | case1 =>
      contradiction
  | case2 nested mark c rest inductionHypothesis =>
      exact whole_of_map_push inductionHypothesis found
  | case3 nested c rest isMark inductionHypothesis =>
      exact whole_of_map_push inductionHypothesis found
  | case4 nested rest noMark inductionHypothesis =>
      exact whole_of_map_push inductionHypothesis found
  | case5 rest =>
      obtain rfl := Option.some.inj found
      rfl
  | case6 rest nested noMark notOpen inductionHypothesis =>
      exact whole_of_map_push inductionHypothesis found
  | case7 nested c rest noMark notOpen notClose inductionHypothesis =>
      exact whole_of_map_push inductionHypothesis found

/-- A cut piece is not empty, and with the text after it gives the text back. -/
def Splits (cut : PieceCut) (text : List Char) : Prop :=
  cut.whole = text ∧ cut.1.text ≠ []

/-- A token of one character splits the text. -/
theorem splits_token (kind : Kind) (c : Char) (rest : List Char) :
    Splits (.token kind [c], rest) (c :: rest) :=
  ⟨rfl, by simp [Piece.text]⟩

/-- A stray character splits the text. -/
theorem splits_stray (c : Char) (rest : List Char) :
    Splits (.stray c, rest) (c :: rest) :=
  ⟨rfl, by simp [Piece.text]⟩

/-- A token made of a cut splits the text. -/
theorem splits_tokenCut
    {kind : Kind}
    {cut : Cut}
    {text : List Char}
    (cutSplits : cut.whole = text ∧ cut.1 ≠ []) :
    Splits (tokenCut kind cut) text :=
  cutSplits

/-- Signs split the text. -/
theorem splits_signPiece (c : Char) (rest : List Char) :
    Splits (signPiece c rest) (c :: rest) := by
  fun_cases signPiece c rest with
  | case1 kind isPair =>
      cases rest <;> simp [Splits, PieceCut.whole, Piece.text]
  | case2 noPair kind isSign =>
      exact splits_token _ _ _
  | case3 noPair noSign =>
      exact splits_stray _ _

/-- Selector pieces split the text. -/
theorem splits_selectorPiece (c : Char) (rest : List Char) :
    Splits (selectorPiece c rest) (c :: rest) := by
  fun_cases selectorPiece c rest with
  | case1 name isName =>
      exact splits_tokenCut (whole_of_cutName? isName)
  | case2 noName hash isHash =>
      exact splits_tokenCut (whole_of_cutHash? isHash)
  | case3 noName noHash number isNumber =>
      rw [Option.ite_none_right_eq_some] at isNumber
      exact splits_tokenCut (whole_of_cutNumber? isNumber.2)
  | case4 noName noHash noNumber =>
      exact splits_signPiece _ _

/-- A name, or the call that it begins, splits the text. -/
theorem splits_wordPiece
    {name : Cut}
    {text : List Char}
    (nameSplits : name.whole = text ∧ name.1 ≠ []) :
    Splits (wordPiece name) text := by
  obtain ⟨whole, nonempty⟩ := nameSplits
  fun_cases wordPiece name with
  | case1 rest after isUrl call isCall =>
      have callWhole := whole_of_cutCall? isCall
      rw [Cut.whole, after] at whole
      refine ⟨?_, by simp [Piece.text]⟩
      simp only [PieceCut.whole, Piece.text, List.append_assoc, List.cons_append,
        ← whole, ← callWhole, Cut.whole]
  | case2 rest after isUrl noCall =>
      rw [Cut.whole, after] at whole
      exact ⟨by simpa [PieceCut.whole, Piece.text] using whole, by simp [Piece.text]⟩
  | case3 noParenthesis =>
      exact splits_tokenCut ⟨whole, nonempty⟩

/-- Declaration pieces split the text. -/
theorem splits_declarationPiece (c : Char) (rest : List Char) :
    Splits (declarationPiece c rest) (c :: rest) := by
  fun_cases declarationPiece c rest with
  | case1 name isName =>
      exact splits_wordPiece (whole_of_cutName? isName)
  | case2 noName number isNumber =>
      exact splits_tokenCut (whole_of_cutNumber? isNumber)
  | case3 noName noNumber hash isHash =>
      exact splits_tokenCut (whole_of_cutHash? isHash)
  | case4 =>
      exact splits_token _ _ _
  | case5 =>
      exact splits_token _ _ _
  | case6 =>
      exact splits_stray _ _

/-- Comments split the text. -/
theorem splits_of_commentPiece?
    {c : Char}
    {rest : List Char}
    {cut : PieceCut}
    (found : commentPiece? c rest = some cut) :
    Splits cut (c :: rest) := by
  revert found
  fun_cases commentPiece? c rest with
  | case1 opens comment isComment =>
      rintro ⟨rfl⟩
      have whole := whole_of_cutComment? isComment
      refine ⟨?_, by simp [Piece.text]⟩
      simp only [PieceCut.whole, Piece.text, List.cons_append, List.append_assoc]
      rw [show comment.1 ++ comment.2 = rest.drop 1 from whole, List.take_append_drop]
  | case2 opens noEnd =>
      rintro ⟨rfl⟩
      exact ⟨by simp [PieceCut.whole, Piece.text], by simp [Piece.text]⟩
  | case3 noComment =>
      rintro ⟨⟩

/-- Strings split the text. -/
theorem splits_stringPiece (mark : Char) (rest : List Char) :
    Splits (stringPiece mark rest) (mark :: rest) := by
  fun_cases stringPiece mark rest with
  | case1 string isString =>
      have whole := whole_of_cutString? isString
      exact ⟨by simpa [PieceCut.whole, Piece.text, Cut.whole] using whole, by simp [Piece.text]⟩
  | case2 noEnd =>
      exact ⟨by simp [PieceCut.whole, Piece.text], by simp [Piece.text]⟩

/-- The next piece splits the text. -/
theorem splits_nextPiece (depth : Nat) (c : Char) (rest : List Char) :
    Splits (nextPiece depth c rest) (c :: rest) := by
  fun_cases nextPiece depth c rest with
  | case1 isBlank =>
      exact ⟨by simp [PieceCut.whole, Piece.text], by simp [Piece.text]⟩
  | case2 notBlank cut isComment =>
      exact splits_of_commentPiece? isComment
  | case3 =>
      exact splits_stringPiece _ _
  | case4 =>
      exact splits_token _ _ _
  | case5 =>
      exact splits_selectorPiece _ _
  | case6 =>
      exact splits_declarationPiece _ _

/-- The text after the next piece is shorter. -/
theorem length_nextPiece (depth : Nat) (c : Char) (rest : List Char) :
    (nextPiece depth c rest).2.length < (c :: rest).length := by
  obtain ⟨whole, nonempty⟩ := splits_nextPiece depth c rest
  have positive := List.length_pos_iff.mpr nonempty
  rw [← whole, PieceCut.whole, List.length_append]
  omega

/-- The pieces of a text, with a number of braces open at its front. -/
def pieces (depth : Nat) : List Char → List Piece
  | [] => []
  | c :: rest =>
      let cut := nextPiece depth c rest
      cut.1 :: pieces (cut.1.depthAfter depth) cut.2
termination_by text => text.length
decreasing_by exact length_nextPiece depth c rest

/-- The pieces of a text put together are the text. -/
theorem text_pieces (depth : Nat) (text : List Char) :
    (pieces depth text).flatMap Piece.text = text := by
  fun_induction pieces depth text with
  | case1 =>
      rfl
  | case2 depth c rest cut inductionHypothesis =>
      rw [List.flatMap_cons, inductionHypothesis]
      exact (splits_nextPiece depth c rest).1

end QtSheet

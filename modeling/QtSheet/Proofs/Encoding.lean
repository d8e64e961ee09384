import Mathlib.Data.List.Basic
import QtSheet.File.Lint

namespace QtSheet

/-!
# Files with the same text

A text is written to a file in several ways: with or without a byte order mark,
and with one of three line ends. Reading the file gives the text back whichever
way was chosen (`readSource_written`), so nothing of the choice is left in the
places of findings. Behind it stands that decoding undoes the encoding of every
character (`decodeFrom_utf8EncodeChar`).
-/

namespace Text.Utf8

theorem toNat_ofNat_of_lt
    {byte : Nat}
    (isByte : byte < 256) :
    (UInt8.ofNat byte).toNat = byte := by
  simpa using isByte

/-- A byte in its range goes into the number of the character. -/
theorem continuation_cons
    {range : Nat × Nat}
    {byte : Nat}
    (isByte : byte < 256)
    (isAbove : range.1 ≤ byte)
    (isBelow : byte ≤ range.2)
    (value done : Nat)
    (ranges : List (Nat × Nat))
    (rest : List UInt8) :
    continuation value done (range :: ranges) (UInt8.ofNat byte :: rest) =
      continuation (value * 64 + (byte - 0x80)) (done + 1) ranges rest := by
  rw [continuation, toNat_ofNat_of_lt isByte, if_pos ⟨isAbove, isBelow⟩]

/-- Behind a lead byte and what it asks for, decoding goes on. -/
theorem decodeFrom_cons
    {lead number : Nat}
    {bytes rest : List UInt8}
    {ranges : List (Nat × Nat)}
    (isByte : lead < 256)
    (isLead : continuationRanges? lead = some ranges)
    (isCharacter : continuation (leadValue lead) 0 ranges bytes = .ok (number, rest))
    (position : Nat) :
    decodeFrom position (UInt8.ofNat lead :: bytes) =
      (decodeFrom (position + 1 + ranges.length) rest).map (Char.ofNat number :: ·) := by
  rw [← toNat_ofNat_of_lt isByte] at isLead isCharacter
  rw [decodeFrom]
  split
  case h_1 noLead =>
    rw [isLead] at noLead
    cases noLead
  case h_2 other isOther =>
    obtain rfl : ranges = other := Option.some.inj (isLead.symm.trans isOther)
    split
    case h_1 done defect isError =>
      rw [isCharacter] at isError
      cases isError
    case h_2 found behind isFound =>
      rw [isCharacter] at isFound
      cases isFound
      rfl

/-- A byte below 128 is a character by itself. -/
theorem continuationRanges?_one
    {lead : Nat}
    (isSmall : lead < 0x80) :
    continuationRanges? lead = some [] := by
  rw [continuationRanges?, if_pos isSmall]

/-- The lead byte of two asks for any continuation byte. -/
theorem continuationRanges?_two
    {lead : Nat}
    (isAbove : 0xC2 ≤ lead)
    (isBelow : lead < 0xE0) :
    continuationRanges? lead = some [(0x80, 0xBF)] := by
  rw [continuationRanges?, if_neg (by omega), if_neg (by omega), if_pos isBelow]

section Range

variable (lead second : Nat) (isContinuation : 0x80 ≤ second ∧ second ≤ 0xBF)

include isContinuation

/-- The lead byte of three leaves out what two bytes can say, and numbers that are no characters. -/
theorem continuationRanges?_three
    (isAbove : 0xE0 ≤ lead)
    (isBelow : lead < 0xF0)
    (isLong : lead = 0xE0 → 0xA0 ≤ second)
    (isCharacter : lead = 0xED → second ≤ 0x9F) :
    ∃ range,
      continuationRanges? lead = some [range, (0x80, 0xBF)] ∧
        range.1 ≤ second ∧
        second ≤ range.2 := by
  by_cases isFirst : lead = 0xE0
  · exact ⟨(0xA0, 0xBF), by rw [isFirst]; rfl, isLong isFirst, isContinuation.2⟩
  · by_cases isGap : lead = 0xED
    · exact ⟨(0x80, 0x9F), by rw [isGap]; rfl, isContinuation.1, isCharacter isGap⟩
    · refine ⟨(0x80, 0xBF), ?_, isContinuation⟩
      rw [continuationRanges?, if_neg (by omega), if_neg (by omega), if_neg (by omega),
        if_neg isFirst, if_neg isGap, if_pos isBelow]

/-- The lead byte of four leaves out what three bytes can say, and numbers above all characters. -/
theorem continuationRanges?_four
    (isAbove : 0xF0 ≤ lead)
    (isBelow : lead ≤ 0xF4)
    (isLong : lead = 0xF0 → 0x90 ≤ second)
    (isCharacter : lead = 0xF4 → second ≤ 0x8F) :
    ∃ range,
      continuationRanges? lead = some [range, (0x80, 0xBF), (0x80, 0xBF)] ∧
        range.1 ≤ second ∧
        second ≤ range.2 := by
  by_cases isFirst : lead = 0xF0
  · exact ⟨(0x90, 0xBF), by rw [isFirst]; rfl, isLong isFirst, isContinuation.2⟩
  · by_cases isLast : lead = 0xF4
    · exact ⟨(0x80, 0x8F), by rw [isLast]; rfl, isContinuation.1, isCharacter isLast⟩
    · refine ⟨(0x80, 0xBF), ?_, isContinuation⟩
      rw [continuationRanges?, if_neg (by omega), if_neg (by omega), if_neg (by omega),
        if_neg (by omega), if_neg (by omega), if_neg (by omega), if_neg isFirst,
        if_pos (by omega)]

end Range

/-- Decoding the bytes of a character gives the character, and goes on behind them. -/
theorem decodeFrom_utf8EncodeChar (position : Nat) (c : Char) (rest : List UInt8) :
    decodeFrom position (String.utf8EncodeChar c ++ rest) =
      (decodeFrom (position + (String.utf8EncodeChar c).length) rest).map (c :: ·) := by
  have isCharacter : c.toNat < 0xD800 ∨ (0xDFFF < c.toNat ∧ c.toNat < 0x110000) := c.valid
  have isOwn : Char.ofNat c.toNat = c := Char.ofNat_toNat c
  rw [String.utf8EncodeChar.eq_def]
  dsimp only
  rw [show c.val.toNat = c.toNat from rfl]
  generalize c.toNat = number at isCharacter isOwn ⊢
  split_ifs with isOne isTwo isThree
  · have isFound : continuation (leadValue number) 0 [] rest = .ok (number, rest) := by
      rw [continuation, leadValue, if_pos (by omega)]
    rw [List.singleton_append,
      decodeFrom_cons (by omega) (continuationRanges?_one (by omega)) isFound, isOwn]
    rfl
  · have isFound :
        continuation (leadValue (number / 64 % 32 + 192)) 0 [(0x80, 0xBF)]
            (UInt8.ofNat (number % 64 + 128) :: rest) =
          .ok (number, rest) := by
      rw [continuation_cons (by omega) (by omega) (by omega), continuation, leadValue,
        if_neg (by omega), if_pos (by omega), Except.ok.injEq, Prod.mk.injEq]
      exact ⟨by omega, rfl⟩
    rw [List.cons_append, List.singleton_append,
      decodeFrom_cons (by omega) (continuationRanges?_two (by omega) (by omega)) isFound, isOwn]
    rfl
  · obtain ⟨range, isLead, isAbove, isBelow⟩ :=
      continuationRanges?_three (number / 4096 % 16 + 224) (number / 64 % 64 + 128) (by omega)
        (by omega) (by omega) (by omega) (by omega)
    have isFound :
        continuation (leadValue (number / 4096 % 16 + 224)) 0 [range, (0x80, 0xBF)]
            (UInt8.ofNat (number / 64 % 64 + 128) :: UInt8.ofNat (number % 64 + 128) :: rest) =
          .ok (number, rest) := by
      rw [continuation_cons (by omega) isAbove isBelow,
        continuation_cons (by omega) (by omega) (by omega), continuation, leadValue,
        if_neg (by omega), if_neg (by omega), if_pos (by omega), Except.ok.injEq, Prod.mk.injEq]
      exact ⟨by omega, rfl⟩
    simp only [List.cons_append, List.nil_append]
    rw [decodeFrom_cons (by omega) isLead isFound, isOwn]
    rfl
  · obtain ⟨range, isLead, isAbove, isBelow⟩ :=
      continuationRanges?_four (number / 262144 % 8 + 240) (number / 4096 % 64 + 128) (by omega)
        (by omega) (by omega) (by omega) (by omega)
    have isFound :
        continuation (leadValue (number / 262144 % 8 + 240)) 0 [range, (0x80, 0xBF), (0x80, 0xBF)]
            (UInt8.ofNat (number / 4096 % 64 + 128) :: UInt8.ofNat (number / 64 % 64 + 128) ::
              UInt8.ofNat (number % 64 + 128) :: rest) =
          .ok (number, rest) := by
      rw [continuation_cons (by omega) isAbove isBelow,
        continuation_cons (by omega) (by omega) (by omega),
        continuation_cons (by omega) (by omega) (by omega), continuation, leadValue,
        if_neg (by omega), if_neg (by omega), if_neg (by omega), Except.ok.injEq, Prod.mk.injEq]
      exact ⟨by omega, rfl⟩
    simp only [List.cons_append, List.nil_append]
    rw [decodeFrom_cons (by omega) isLead isFound, isOwn]
    rfl

/-- The bytes of a text. -/
def encode (text : String) : List UInt8 :=
  text.toUTF8.data.toList

/-- The bytes of a text are those of its characters. -/
theorem encode_eq (text : String) :
    encode text = text.toList.flatMap String.utf8EncodeChar := by
  rw [encode, ← String.ofList_toList (s := text), String.toUTF8_eq_toByteArray,
    String.toByteArray_ofList, String.toList_ofList]
  simp [List.utf8Encode]

/-- Decoding the bytes of a text gives its characters. -/
theorem decode_encode (text : String) :
    decode (encode text) = .ok text.toList := by
  have decodeFrom_flatMap (position : Nat) (characters : List Char) :
      decodeFrom position (characters.flatMap String.utf8EncodeChar) = .ok characters := by
    induction characters generalizing position with
    | nil =>
        rw [List.flatMap_nil, decodeFrom]
    | cons c rest inductionHypothesis =>
        rw [List.flatMap_cons, decodeFrom_utf8EncodeChar, inductionHypothesis]
        rfl
  rw [decode, encode_eq, decodeFrom_flatMap]

end Text.Utf8

open Text.Utf8

/-- The character whose bytes are the byte order mark. -/
def markCharacter : Char :=
  '\uFEFF'

/-- The byte order mark is the bytes of its character. -/
theorem utf8EncodeChar_markCharacter :
    String.utf8EncodeChar markCharacter = byteOrderMark := by
  decide

/-- A mark in front of some bytes is left out. -/
theorem withoutMark_append (bytes : List UInt8) :
    withoutMark (byteOrderMark ++ bytes) = bytes := by
  cases bytes with
  | nil =>
      rfl
  | cons byte rest =>
      simp [withoutMark, byteOrderMark]

/-- What begins with a mark is decoded to what begins with its character. -/
theorem head?_of_decode_mark
    {rest : List UInt8}
    {characters : List Char}
    (isDecoded : decode (byteOrderMark ++ rest) = .ok characters) :
    characters.head? = some markCharacter := by
  rw [← utf8EncodeChar_markCharacter, decode, decodeFrom_utf8EncodeChar] at isDecoded
  generalize decodeFrom _ rest = others at isDecoded
  cases others with
  | error fault =>
      cases isDecoded
  | ok others =>
      rw [← Except.ok.inj isDecoded]
      rfl

/-- Bytes that are decoded to what does not begin with the mark stay as they are. -/
theorem withoutMark_of_decode
    {bytes : List UInt8}
    {characters : List Char}
    (isDecoded : decode bytes = .ok characters)
    (noMark : characters.head? ≠ some markCharacter) :
    withoutMark bytes = bytes := by
  have noWhole (rest : List UInt8) : bytes ≠ byteOrderMark ++ rest := by
    rintro rfl
    exact noMark (head?_of_decode_mark isDecoded)
  fun_cases withoutMark bytes with
  | case1 isPart =>
      -- A part of the mark is no character, so nothing but the empty file is one.
      obtain ⟨rest, isMark⟩ := List.isPrefixOf_iff_prefix.mp isPart
      have isPart : bytes ∈ [[], [0xEF], [0xEF, 0xBB], byteOrderMark ++ []] := by
        rcases bytes with _ | ⟨first, _ | ⟨second, _ | ⟨third, others⟩⟩⟩ <;>
          simp_all [byteOrderMark]
      simp only [List.mem_cons, List.not_mem_nil, or_false] at isPart
      rcases isPart with rfl | rfl | rfl | isWhole
      · rfl
      · simp [decode, decodeFrom, continuationRanges?, continuation] at isDecoded
      · simp [decode, decodeFrom, continuationRanges?, continuation] at isDecoded
      · exact absurd isWhole (noWhole [])
  | case2 notPart begins =>
      obtain ⟨rest, isBytes⟩ := List.isPrefixOf_iff_prefix.mp begins
      exact absurd isBytes.symm (noWhole rest)
  | case3 =>
      rfl

/-- The ways to end a line. -/
inductive LineEnd where
  | lineFeed
  | carriageReturn
  | both
  deriving Repr, DecidableEq

/-- The characters at the end of a line. -/
def LineEnd.text : LineEnd → List Char
  | .lineFeed => ['\n']
  | .carriageReturn => ['\r']
  | .both => ['\r', '\n']

/-- The characters of a text with its lines ended in a given way. -/
def LineEnd.write (lineEnd : LineEnd) (text : List Char) : List Char :=
  text.flatMap fun c => if c = '\n' then lineEnd.text else [c]

/-- A carriage return that no line feed follows ends a line. -/
theorem withLineFeeds_return
    {rest : List Char}
    (noFeed : rest.head? ≠ some '\n') :
    withLineFeeds ('\r' :: rest) = '\n' :: withLineFeeds rest := by
  rw [withLineFeeds]
  · rfl
  · rintro others - rfl
    exact noFeed rfl

/-- Other characters than carriage returns stay as they are. -/
theorem withLineFeeds_cons
    {c : Char}
    (noReturn : c ≠ '\r')
    (rest : List Char) :
    withLineFeeds (c :: rest) = c :: withLineFeeds rest := by
  rw [withLineFeeds, if_neg noReturn]
  intro others isReturn
  exact absurd isReturn noReturn

/-- With carriage returns as line ends there are no line feeds. -/
theorem not_mem_write_carriageReturn (text : List Char) :
    '\n' ∉ LineEnd.carriageReturn.write text := by
  intro isFeed
  obtain ⟨c, _, isWritten⟩ := List.mem_flatMap.mp isFeed
  by_cases endsLine : c = '\n'
  · simp [endsLine, LineEnd.text] at isWritten
  · rw [if_neg endsLine] at isWritten
    exact endsLine (List.mem_singleton.mp isWritten).symm

/-- Whichever line ends a text is written with, they become line feeds again. -/
theorem withLineFeeds_write
    {text : List Char}
    (noReturn : '\r' ∉ text)
    (lineEnd : LineEnd) :
    withLineFeeds (lineEnd.write text) = text := by
  induction text with
  | nil =>
      rfl
  | cons c rest inductionHypothesis =>
      obtain ⟨notReturn, restReturn⟩ := not_or.mp (mt List.mem_cons.mpr noReturn)
      have restWritten := inductionHypothesis restReturn
      rw [LineEnd.write, List.flatMap_cons, ← LineEnd.write]
      by_cases isFeed : c = '\n'
      · subst isFeed
        rw [if_pos rfl]
        cases lineEnd with
        | lineFeed =>
            rw [LineEnd.text, List.singleton_append, withLineFeeds_cons (by decide), restWritten]
        | carriageReturn =>
            have noFeed : (LineEnd.carriageReturn.write rest).head? ≠ some '\n' :=
              fun isFirst => not_mem_write_carriageReturn rest (List.mem_of_mem_head? isFirst)
            rw [LineEnd.text, List.singleton_append, withLineFeeds_return noFeed, restWritten]
        | both =>
            rw [LineEnd.text, List.cons_append, List.singleton_append, withLineFeeds, restWritten]
      · rw [if_neg isFeed, List.singleton_append, withLineFeeds_cons (Ne.symm notReturn),
          restWritten]

/-- How a text is written to a file. -/
structure FileStyle where
  /-- Whether a byte order mark stands in front. -/
  marked : Bool
  lineEnd : LineEnd
  deriving Repr, DecidableEq

/-- The bytes of a file with a text. -/
def FileStyle.write (style : FileStyle) (text : String) : List UInt8 :=
  (if style.marked then byteOrderMark else []) ++
    encode (String.ofList (style.lineEnd.write text.toList))

/-- Writing a text with other line ends does not make it begin with the character of the mark. -/
theorem LineEnd.head?_write
    {text : List Char}
    (noMark : text.head? ≠ some markCharacter)
    (lineEnd : LineEnd) :
    (lineEnd.write text).head? ≠ some markCharacter := by
  cases text with
  | nil =>
      exact noMark
  | cons c rest =>
      rw [LineEnd.write, List.flatMap_cons]
      split
      · cases lineEnd <;> simp [LineEnd.text, markCharacter]
      · exact noMark

/-- The bytes of a file with a text are decoded to the text. -/
theorem decodeSource_write
    {text : String}
    (noReturn : '\r' ∉ text.toList)
    (noMark : text.toList.head? ≠ some markCharacter)
    (style : FileStyle) :
    decodeSource (style.write text) = .ok text := by
  obtain ⟨marked, lineEnd⟩ := style
  have isDecoded := decode_encode (String.ofList (lineEnd.write text.toList))
  rw [String.toList_ofList] at isDecoded
  have isUnmarked :
      withoutMark (FileStyle.write ⟨marked, lineEnd⟩ text) =
        encode (String.ofList (lineEnd.write text.toList)) := by
    rw [FileStyle.write]
    cases marked with
    | true =>
        rw [if_pos rfl, withoutMark_append]
    | false =>
        rw [if_neg Bool.false_ne_true, List.nil_append,
          withoutMark_of_decode isDecoded (lineEnd.head?_write noMark)]
  rw [decodeSource, isUnmarked, isDecoded]
  simp only [Except.map, withLineFeeds_write noReturn, String.ofList_toList]

/--
However a text without carriage returns is written to a file, reading the file
gives the text, and linting the file is linting the text.
-/
theorem readSource_written
    {text path : String}
    {style : FileStyle}
    {read : FileReader}
    (noReturn : '\r' ∉ text.toList)
    (noMark : text.toList.head? ≠ some markCharacter)
    (noNull : '\x00' ∉ path.toList)
    (isWritten : read (Path.ofText path) = .ok (style.write text)) :
    readSource read path = .ok text ∧
      ∀ mode, lintPath read mode path = .ok ⟨lint path text mode, lintLog path text mode⟩ := by
  have isRead : readSource read path = .ok text := by
    simp [readSource, noNull, isWritten, decodeSource_write noReturn noMark]
  refine ⟨isRead, fun mode => ?_⟩
  rw [lintPath, isRead]

/-- A folder with a style sheet that begins with a mark and ends its lines with two characters. -/
def markedSheet : FileTree :=
  FileTree.empty.add ["é.qss"]
    (.file [0xEF, 0xBB, 0xBF, 0xC3, 0xA9, 0x0D, 0x0A, 0x0D, 0x0A, 0xF0, 0x9F, 0x98, 0x80])

/-- Neither the mark nor the carriage returns count for the place of a stray character. -/
theorem readSource_written_marked :
    '\r' ∉ "é\n\n😀".toList ∧
      "é\n\n😀".toList.head? ≠ some markCharacter ∧
      '\x00' ∉ "é.qss".toList ∧
      markedSheet.read (Path.ofText "é.qss") = .ok (FileStyle.write ⟨true, .both⟩ "é\n\n😀") ∧
      readSource markedSheet.read "é.qss" = .ok "é\n\n😀" ∧
      ∃ linted,
        lintPath markedSheet.read .full "é.qss" = .ok linted ∧
          linted.outcome.diagnostics.map (fun diagnostic => (diagnostic.start, diagnostic.line)) =
            [(3, 3), (4, 3)] := by
  have noReturn : '\r' ∉ "é\n\n😀".toList := by decide
  have noMark : "é\n\n😀".toList.head? ≠ some markCharacter := by decide
  have noNull : '\x00' ∉ "é.qss".toList := by decide
  have isWritten :
      markedSheet.read (Path.ofText "é.qss") =
        .ok (FileStyle.write ⟨true, .both⟩ "é\n\n😀") := by
    decide +kernel
  obtain ⟨isRead, isLinted⟩ := readSource_written noReturn noMark noNull isWritten
  exact ⟨noReturn, noMark, noNull, isWritten, isRead, _, isLinted .full, by decide +kernel⟩

end QtSheet

import QtSheet.CommandLine
import QtSheet.Proofs.Value.Letter

namespace QtSheet

/-!
# Printable text

A text is printable when each of its characters is. Names are printable because
of the characters that a name may have, numbers because of their digits, and a
quoted text whatever the text is: what cannot be seen is written as an escape.

A printable text stays what it is on its way to the reader. It has no escape
sequence to lose (`withoutEscapes_of_printable`), and printable lines put
together fall apart into the same lines (`physicalLines_textOfLines`).
-/

namespace Text

/-- All characters of a text are printable. -/
def Printable (text : String) : Prop :=
  text.toList.all isPrintable = true

instance (text : String) : Decidable (Printable text) :=
  inferInstanceAs (Decidable (text.toList.all isPrintable = true))

/-- Printable texts behind each other are printable. -/
theorem Printable.append
    {front back : String}
    (isFront : Printable front)
    (isBack : Printable back) :
    Printable (front ++ back) := by
  rw [Printable, String.toList_append, List.all_append, isFront, isBack]
  rfl

/-- A text is printable if each of its characters is. -/
theorem printable_ofList (characters : List Char) :
    Printable (String.ofList characters) ↔ ∀ c ∈ characters, isPrintable c = true := by
  rw [Printable, String.toList_ofList, List.all_eq_true]

/-- The characters of a name are printable. -/
theorem isPrintable_of_isNameCharacter
    {c : Char}
    (isName : isNameCharacter c = true) :
    isPrintable c = true := by
  have areEnclosed : Value.encloses printableRanges alphanumericRanges = true := by
    decide +kernel
  simp only [isNameCharacter, isWordCharacter, Bool.or_eq_true, beq_iff_eq] at isName
  rcases isName with (rfl | isAlphanumeric) | rfl
  · decide
  · exact Value.covers_of_encloses areEnclosed isAlphanumeric
  · decide

/-- The digits of ASCII are printable. -/
theorem isPrintable_of_isDigit
    {c : Char}
    (isDigit : c.isDigit = true) :
    isPrintable c = true := by
  simp only [Char.isDigit, Bool.and_eq_true, decide_eq_true_eq, UInt32.le_iff_toNat_le] at isDigit
  have notBelow : 48 ≤ c.toNat := isDigit.1
  have notAbove : c.toNat ≤ 57 := isDigit.2
  rw [isPrintable, printableRanges, covers, if_neg (by simp; omega), if_pos (by simp; omega)]

/-- The digits of a number are printable. -/
theorem printable_repr (number : Nat) :
    Printable number.repr := by
  refine List.all_eq_true.mpr fun c member => isPrintable_of_isDigit ?_
  rw [Nat.toList_repr] at member
  exact Nat.isDigit_of_mem_toDigits (by decide) (by decide) member

theorem printable_toString_nat (number : Nat) :
    Printable (toString number) :=
  printable_repr number

/-- Integers are written with printable characters. -/
theorem printable_toString_int (number : Int) :
    Printable (toString number) := by
  cases number with
  | ofNat size =>
      exact printable_repr size
  | negSucc size =>
      exact .append (by decide) (printable_repr (size + 1))

/-- Hexadecimal digits are printable. -/
theorem all_hexDigits (width value : Nat) :
    (hexDigits width value).all isPrintable = true := by
  have areShown : ∀ digit < 16, isPrintable (hexDigit digit) = true := by
    decide
  induction width generalizing value with
  | zero =>
      rfl
  | succ width inductionHypothesis =>
      have isShown := areShown (value % 16) (Nat.mod_lt value (by decide))
      simp [hexDigits, inductionHypothesis, isShown]

/-- The escape of a character is printable. -/
theorem all_codePointEscape (c : Char) :
    (codePointEscape c).all isPrintable = true := by
  unfold codePointEscape
  split
  · exact all_hexDigits 2 c.toNat
  · split
    · exact all_hexDigits 4 c.toNat
    · exact all_hexDigits 8 c.toNat

/-- Between printable marks every character is written in printable ones. -/
theorem all_escaped
    {mark : Char}
    (isMark : isPrintable mark = true)
    (c : Char) :
    (escaped mark c).all isPrintable = true := by
  fun_cases escaped mark c with
  | case1 isKept =>
      simp only [Bool.or_eq_true, decide_eq_true_eq] at isKept
      rcases isKept with rfl | rfl
      · simp [isMark, show isPrintable '\\' = true by decide]
      · decide
  | case2 | case3 | case4 =>
      decide
  | case5 _ _ _ _ isShown =>
      simp [isShown]
  | case6 =>
      exact all_codePointEscape c

/-- Both quotation marks are printable. -/
theorem isPrintable_quotationMark (text : List Char) :
    isPrintable (quotationMark text) = true := by
  unfold quotationMark
  split <;> decide

/-- A quoted text is printable, whatever the text is. -/
theorem printable_quoted (text : String) :
    Printable (quoted text) := by
  have isMark := isPrintable_quotationMark text.toList
  rw [quoted, Printable, String.toList_ofList, quotedCharacters]
  simp only [List.cons_append, List.all_cons, List.all_append, List.all_nil, List.all_flatMap,
    isMark, Bool.and_true, Bool.true_and]
  exact List.all_eq_true.mpr fun c _ => all_escaped isMark c

/-- The control characters of Unicode 14. -/
def controlRanges : List Range :=
  [⟨0x0, 0x1F⟩, ⟨0x7F, 0x9F⟩]

/-- The format characters of Unicode 14. -/
def formatRanges : List Range :=
  [⟨0xAD, 0xAD⟩, ⟨0x600, 0x605⟩, ⟨0x61C, 0x61C⟩, ⟨0x6DD, 0x6DD⟩, ⟨0x70F, 0x70F⟩,
   ⟨0x890, 0x891⟩, ⟨0x8E2, 0x8E2⟩, ⟨0x180E, 0x180E⟩, ⟨0x200B, 0x200F⟩, ⟨0x202A, 0x202E⟩,
   ⟨0x2060, 0x2064⟩, ⟨0x2066, 0x206F⟩, ⟨0xFEFF, 0xFEFF⟩, ⟨0xFFF9, 0xFFFB⟩, ⟨0x110BD, 0x110BD⟩,
   ⟨0x110CD, 0x110CD⟩, ⟨0x13430, 0x13438⟩, ⟨0x1BCA0, 0x1BCA3⟩, ⟨0x1D173, 0x1D17A⟩,
   ⟨0xE0001, 0xE0001⟩, ⟨0xE0020, 0xE007F⟩]

/-- The separators of Unicode 14 other than the space. -/
def separatorRanges : List Range :=
  [⟨0xA0, 0xA0⟩, ⟨0x1680, 0x1680⟩, ⟨0x2000, 0x200A⟩, ⟨0x2028, 0x2029⟩, ⟨0x202F, 0x202F⟩,
   ⟨0x205F, 0x205F⟩, ⟨0x3000, 0x3000⟩]

/-- The characters that a reader does not see, or sees as a space or a new line. -/
def hiddenRanges : List Range :=
  controlRanges ++ formatRanges ++ separatorRanges

/-- Whether a character is a control, a format character or a separator other than the space. -/
def isHidden (c : Char) : Bool :=
  hiddenRanges.any fun range => range.first ≤ c.toNat && c.toNat ≤ range.last

/-- No printable character is hidden. -/
theorem isHidden_of_isPrintable
    {c : Char}
    (isPrintable : isPrintable c = true) :
    isHidden c = false := by
  have areApart :
      (hiddenRanges.all fun hidden =>
        printableRanges.all fun printable =>
          printable.last.blt hidden.first || hidden.last.blt printable.first) = true := by
    decide +kernel
  obtain ⟨printable, isRange, bounds⟩ := exists_range_of_covers isPrintable
  refine List.any_eq_false.mpr fun hidden isHidden => ?_
  have fromHidden := List.all_eq_true.mp areApart hidden isHidden
  have isApart := List.all_eq_true.mp fromHidden printable isRange
  simp only [Bool.or_eq_true, Bool.and_eq_true, decide_eq_true_eq, Nat.blt_eq] at isApart ⊢
  omega

/-- Nothing in a printable text is hidden. -/
theorem Printable.isHidden_eq_false
    {text : String}
    {c : Char}
    (isPrintable : Printable text)
    (member : c ∈ text.toList) :
    isHidden c = false :=
  isHidden_of_isPrintable (List.all_eq_true.mp isPrintable c member)

/-- Nothing is taken from a text without escape characters. -/
theorem withoutEscapesIn_of_not_mem
    {text : List Char}
    (noEscape : escapeCharacter ∉ text) :
    withoutEscapesIn text = text := by
  induction text with
  | nil =>
      rw [withoutEscapesIn]
  | cons c rest inductionHypothesis =>
      obtain ⟨otherwise, noLater⟩ := not_or.mp (mt List.mem_cons.mpr noEscape)
      rw [withoutEscapesIn, if_neg (Ne.symm otherwise), inductionHypothesis noLater]

/-- A printable text has no escape sequence to lose. -/
theorem withoutEscapes_of_printable
    {text : String}
    (isPrintable : Printable text) :
    withoutEscapes text = text := by
  have noEscape : escapeCharacter ∉ text.toList := by
    intro member
    have isSeen := isPrintable.isHidden_eq_false member
    revert isSeen
    decide
  rw [withoutEscapes, withoutEscapesIn_of_not_mem noEscape, String.ofList_toList]

/-- The characters that end a line. -/
def lineBreaks : List Char :=
  ['\n', '\x0b', '\x0c', '\r', '\x1c', '\x1d', '\x1e', '\x85', '\u2028', '\u2029']

/-- Whether a character ends a line. -/
def isLineBreak (c : Char) : Bool :=
  lineBreaks.contains c

/-- The lines of a text as a reader sees them, the last one without its end. -/
def physicalLines (text : String) : List String :=
  (text.toList.splitOnP isLineBreak).map String.ofList

/-- Nothing in a printable text breaks its line. -/
theorem Printable.isLineBreak_eq_false
    {text : String}
    {c : Char}
    (isPrintable : Printable text)
    (member : c ∈ text.toList) :
    isLineBreak c = false := by
  have areHidden : lineBreaks.all isHidden = true := by
    decide
  refine Bool.eq_false_iff.mpr fun isBreak => ?_
  have isHidden := List.all_eq_true.mp areHidden c (List.contains_iff_mem.mp isBreak)
  rw [isPrintable.isHidden_eq_false member] at isHidden
  cases isHidden

/-- Printable lines, each with its end, are the lines that a reader sees. -/
theorem physicalLines_textOfLines
    {lines : List String}
    (arePrintable : ∀ line ∈ lines, Printable line) :
    physicalLines (CommandLine.textOfLines lines) = lines ++ [""] := by
  induction lines with
  | nil =>
      rfl
  | cons line lines inductionHypothesis =>
      obtain ⟨isFirst, areLater⟩ := List.forall_mem_cons.mp arePrintable
      have isText :
          (CommandLine.textOfLines (line :: lines)).toList =
            line.toList ++ '\n' :: (CommandLine.textOfLines lines).toList := by
        simp [CommandLine.textOfLines, String.join_cons]
      have isSplit :=
        List.splitOnP_append_cons_of_forall_mem
          (fun c => isFirst.isLineBreak_eq_false) '\n' (by decide)
          (CommandLine.textOfLines lines).toList
      have isLater := inductionHypothesis areLater
      unfold physicalLines at isLater ⊢
      rw [isText, isSplit, List.map_cons, isLater, String.ofList_toList, List.cons_append]

end Text

end QtSheet

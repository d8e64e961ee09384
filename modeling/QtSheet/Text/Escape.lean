namespace QtSheet.Text

/-!
# Escape sequences

What is printed goes without the sequences that change the look of a terminal:
the escape character, an opening bracket, parameters and a letter.
-/

/-- The escape character. -/
def escapeCharacter : Char :=
  '\x1b'

/-- Whether a character may stand among the parameters of an escape sequence. -/
def isParameter (c : Char) : Bool :=
  c.isDigit || c == ';' || c == '?'

/-- The text after the rest of an escape sequence, if it is one. -/
def afterEscape? : List Char → Option (List Char)
  | '[' :: rest =>
      match rest.dropWhile isParameter with
      | [] => none
      | c :: after => if c.isAlpha then some after else none
  | _ => none

/-- The text after an escape sequence is shorter. -/
theorem length_of_afterEscape?
    {text rest : List Char}
    (found : afterEscape? text = some rest) :
    rest.length < text.length := by
  revert found
  fun_cases afterEscape? text with
  | case1 body noLetter =>
      rintro ⟨⟩
  | case2 body c after left isLetter =>
      rintro ⟨rfl⟩
      have shorter := (List.dropWhile_suffix (l := body) isParameter).length_le
      rw [left, List.length_cons] at shorter
      simp only [List.length_cons]
      omega
  | case3 =>
      rintro ⟨⟩
  | case4 =>
      rintro ⟨⟩

/-- A text without its escape sequences, as a list of characters. -/
def withoutEscapesIn : List Char → List Char
  | [] => []
  | c :: rest =>
      if c = escapeCharacter then
        match _escape : afterEscape? rest with
        | some after => withoutEscapesIn after
        | none => c :: withoutEscapesIn rest
      else
        c :: withoutEscapesIn rest
termination_by text => text.length
decreasing_by
  · have shorter := length_of_afterEscape? _escape
    simp only [List.length_cons]
    omega
  · simp
  · simp

/-- A text without its escape sequences. -/
def withoutEscapes (text : String) : String :=
  String.ofList (withoutEscapesIn text.toList)

end QtSheet.Text

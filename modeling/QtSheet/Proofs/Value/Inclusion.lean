import QtSheet.Proofs.Value.FontToken

namespace QtSheet

/-!
# Shapes within shapes

Some shapes take all that others take: brushes are colors and more, a border
may have a brush or a width, and a font may be no more than its size
(`Shape.fits_of_narrower`). The terms of a value do not depend on its shape, so
that an item of a narrow shape is looked for among the same terms as an item of a
wide one, and is found at the same place.

A property that stands for several sides at once takes what it takes for each
of them (`accepts_of_part`).
-/

namespace Value

/-- Wherever one item is found, another one is found of the same terms. -/
def Item.Within (narrow wide : Item) : Prop :=
  ∀ terms rest, narrow.after? terms = some rest → wide.after? terms = some rest

/-- A color is taken by a brush. -/
theorem color_within_brush : color.Within brush := by
  intro terms rest found
  change afterBrush? terms = some rest
  unfold afterBrush?
  split
  · contradiction
  · contradiction
  · exact found

/-- A brush is taken by a part of a border. -/
theorem brush_within_borderPart : brush.Within borderPart := by
  intro terms rest found
  change afterBorderPart? terms = some rest
  unfold afterBorderPart?
  split
  case h_1 =>
    contradiction
  case h_2 word others =>
    -- A brush that is a name is the name of a color.
    obtain ⟨isColor, same⟩ :=
      Option.ite_none_right_eq_some.mp
        (show (if word ∈ Keyword.colors then some others else none) = some rest from found)
    rw [if_pos (.inr isColor), same]
  case h_3 =>
    exact found

theorem length_within_borderPart : length.Within borderPart := by
  intro terms rest found
  change afterLength? terms = some rest at found
  unfold afterLength? at found
  split at found
  · exact found
  · contradiction

namespace Item.Within

variable {narrow wide : Item} (within : narrow.Within wide)

include within

/-- What is one item of the narrow kind is one of the wide kind. -/
theorem isWhole
    {terms : List Term}
    (isNarrow : narrow.isWhole terms = true) :
    wide.isWhole terms = true :=
  decide_eq_true (within terms [] (of_decide_eq_true isNarrow))

/-- As many wide items are found one behind the other as narrow ones. -/
theorem count?_eq
    {terms : List Term}
    {count : Nat}
    (isCount : narrow.count? terms = some count) :
    wide.count? terms = some count := by
  fun_induction narrow.count? terms generalizing count with
  | case1 =>
      rw [wide.count?_nil]
      exact isCount
  | case2 =>
      contradiction
  | case3 term terms rest taken inductionHypothesis =>
      obtain ⟨others, areOthers, rfl⟩ := Option.map_eq_some_iff.mp isCount
      rw [wide.count?_cons (List.cons_ne_nil term terms), within _ _ taken, Option.bind_some,
        inductionHypothesis areOthers]
      rfl

end Item.Within

/-- Values whose terms pass a test pass every weaker one. -/
theorem hasTerms_mono
    {narrow wide : List Term → Bool}
    (weaker : ∀ terms, narrow terms = true → wide terms = true)
    (tokens : List Token)
    (passes : hasTerms narrow tokens = true) :
    hasTerms wide tokens = true := by
  obtain ⟨terms, areTerms, isNarrow⟩ := exists_terms_of_hasTerms passes
  rw [hasTerms, areTerms]
  exact weaker terms isNarrow

/-- A weaker test of the number of wide items is passed where a test of narrow ones is. -/
theorem Item.Within.any_count?
    {narrow wide : Item}
    {few many : Nat → Bool}
    (within : narrow.Within wide)
    (weaker : ∀ count, few count = true → many count = true)
    (terms : List Term)
    (passes : (narrow.count? terms).any few = true) :
    (wide.count? terms).any many = true := by
  obtain ⟨count, isCount, isFew⟩ := (Option.any_eq_true _ _).mp passes
  exact (Option.any_eq_true _ _).mpr ⟨count, within.count?_eq isCount, weaker count isFew⟩

/-- A length by itself is a font, and so is a length in front of families. -/
theorem isFont_of_isOptionalFamilies
    {size : NumeralUnit}
    {families : List Term}
    (isLength : size.isLength = true)
    (areFamilies : isOptionalFamilies families = true) :
    isFont (.numeral size :: families) = true := by
  cases families with
  | nil =>
      simp [isFont, isLength, isOptionalFamilies]
  | cons first others =>
      -- No family begins with the slash of a line height.
      cases first <;> simp_all [isFont, isOptionalFamilies, isFamilies]

/-- Tokens behind each other are joined with a space between them. -/
theorem toList_joined_append
    {front back : List Token}
    (frontNonempty : front ≠ [])
    (backNonempty : back ≠ []) :
    (Token.joined (front ++ back)).toList =
      (Token.joined front).toList ++ ' ' :: (Token.joined back).toList := by
  induction front with
  | nil =>
      contradiction
  | cons first others inductionHypothesis =>
      cases others with
      | nil =>
          obtain ⟨second, rest, rfl⟩ := List.exists_cons_of_ne_nil backNonempty
          rw [List.singleton_append, toList_joined_cons, toList_joined_singleton]
      | cons second others =>
          rw [List.cons_append, List.cons_append, toList_joined_cons, ← List.cons_append,
            inductionHypothesis (by simp), toList_joined_cons, List.append_assoc, List.cons_append]

/-- There are tokens where there are terms. -/
theorem ne_nil_of_terms?_joined
    {tokens : List Token}
    {term : Term}
    {terms : List Term}
    (areTerms : terms? (Token.joined tokens).toList = some (term :: terms)) :
    tokens ≠ [] := by
  rintro rfl
  rw [show (Token.joined []).toList = [] from rfl, terms?_nil] at areTerms
  cases areTerms

end Value

namespace Shape

/-- Every value of a shape is a value of another one. -/
def Within (narrow wide : Shape) : Prop :=
  ∀ tokens, narrow.fits tokens = true → wide.fits tokens = true

open Value

/-- Every color is a value of a brush. -/
theorem color_within_brush : color.Within brush :=
  hasTerms_mono fun _ => Value.color_within_brush.isWhole

/-- Every brush is a list of colors. -/
theorem brush_within_colors : brush.Within colors :=
  hasTerms_mono fun terms isBrush => by
    rw [isColors, Value.brush.count?_of_isWhole isBrush]
    rfl

/-- Every length is a value of a box. -/
theorem length_within_box : length.Within box :=
  hasTerms_mono fun terms isLength => by
    rw [isBox, Value.length.count?_of_isWhole isLength]
    rfl

private theorem isSome_of_upToFour
    {count : Nat}
    (upToFour : (decide (1 ≤ count) && decide (count ≤ 4)) = true) :
    decide (1 ≤ count) = true :=
  (Bool.and_eq_true_iff.mp upToFour).1

theorem colors_within_border : colors.Within border :=
  hasTerms_mono (brush_within_borderPart.any_count? fun _ => isSome_of_upToFour)

theorem box_within_border : box.Within border :=
  hasTerms_mono (length_within_borderPart.any_count? fun _ => isSome_of_upToFour)

/-- Every length is a value of a font. -/
theorem length_within_font : length.Within font :=
  hasTerms_mono fun terms isLength => by
    obtain ⟨size, rfl, isSize⟩ := isWhole_length_iff.mp isLength
    exact isFont_of_isOptionalFamilies isSize rfl

/-- Families behind a length make a font. -/
theorem fits_font_append
    {sizes families : List Token}
    (isLength : length.fits sizes = true)
    (areFamilies : fontFamily.fits families = true) :
    font.fits (sizes ++ families) = true := by
  obtain ⟨_, isSize, isWhole⟩ := exists_terms_of_hasTerms isLength
  obtain ⟨size, rfl, isLengthUnit⟩ := isWhole_length_iff.mp isWhole
  obtain ⟨terms, areTerms, passes⟩ := exists_terms_of_hasTerms areFamilies
  have someFamilies : families ≠ [] := by
    cases terms with
    | nil =>
        simp [isFamilies] at passes
    | cons term others =>
        exact ne_nil_of_terms?_joined areTerms
  have areBoth :
      terms? (Token.joined (sizes ++ families)).toList = some (.numeral size :: terms) := by
    rw [toList_joined_append (ne_nil_of_terms?_joined isSize) someFamilies,
      terms?_append_space isSize, areTerms]
    rfl
  change hasTerms isFont (sizes ++ families) = true
  rw [hasTerms, areBoth]
  exact isFont_of_isOptionalFamilies isLengthUnit (by simp [isOptionalFamilies, passes])

/-- More words, and more of them, are values of more keywords. -/
theorem keyword_within
    {words others : List String}
    {most more : Int}
    (areWords : ∀ word ∈ words, word ∈ others)
    (noFewer : most ≤ more) :
    (keyword words most).Within (keyword others more) := by
  have isOther : ∀ token, isKeyword words token = true → isKeyword others token = true := by
    intro token isWord
    obtain ⟨isKind, isContained⟩ := Bool.and_eq_true_iff.mp isWord
    refine Bool.and_eq_true_iff.mpr ⟨isKind, ?_⟩
    exact List.contains_iff_mem.mpr (areWords _ (List.contains_iff_mem.mp isContained))
  intro tokens areKeywords
  unfold fits at areKeywords ⊢
  simp only [Bool.and_eq_true, decide_eq_true_eq, List.all_eq_true] at areKeywords ⊢
  obtain ⟨⟨someWords, notMore⟩, isEach⟩ := areKeywords
  refine ⟨⟨someWords, notMore.trans noFewer⟩, fun token member => ?_⟩
  exact isOther token (isEach token member)

/-- Whether a shape is that of one side and another one that of all sides together. -/
def isSideOf : Shape → Shape → Bool
  | .length, .box => true
  | .brush, .colors => true
  | .keyword words most, .keyword others more =>
      words.all (fun word => decide (word ∈ others)) && decide (most ≤ more)
  | narrow, wide => narrow = wide

/-- The value of one side is a value of the shape of all sides. -/
theorem within_of_isSideOf
    {narrow wide : Shape}
    (isSide : narrow.isSideOf wide = true) :
    narrow.Within wide := by
  unfold isSideOf at isSide
  split at isSide
  · exact length_within_box
  · exact brush_within_colors
  · simp only [Bool.and_eq_true, List.all_eq_true, decide_eq_true_eq] at isSide
    exact keyword_within isSide.1 isSide.2
  · obtain rfl := of_decide_eq_true isSide
    exact fun _ fits => fits

end Shape

namespace Property

/-- Whether the value made of some tokens is accepted for a property. -/
def accepts (name : String) (tokens : List Token) : Bool :=
  (shape? name).any fun shape => shape.fits tokens

/--
A property that stands for several others, which have the name of a side or of a
corner in the middle of their names.
-/
structure Shorthand where
  front : String
  back : String
  places : List String

namespace Shorthand

/-- The name of the property that stands for all places. -/
def name (shorthand : Shorthand) : String :=
  shorthand.front ++ shorthand.back

/-- The name of the property of one place. -/
def part (shorthand : Shorthand) (place : String) : String :=
  shorthand.front ++ place ++ shorthand.back

end Shorthand

/-- All properties that stand for those of the sides or of the corners of a rectangle. -/
def shorthands : List Shorthand :=
  let sides := ["-top", "-right", "-bottom", "-left"]
  let corners := ["-top-left", "-top-right", "-bottom-left", "-bottom-right"]
  [⟨"border", "", sides⟩, ⟨"border", "-color", sides⟩, ⟨"border", "-style", sides⟩,
   ⟨"border", "-width", sides⟩, ⟨"border", "-radius", corners⟩, ⟨"margin", "", sides⟩,
   ⟨"outline", "-radius", corners⟩, ⟨"padding", "", sides⟩]

/-- What is accepted for one side or corner is accepted for all of them at once. -/
theorem accepts_of_part
    {shorthand : Shorthand}
    {place : String}
    (isShorthand : shorthand ∈ shorthands)
    (isPlace : place ∈ shorthand.places)
    {tokens : List Token}
    (accepted : accepts (shorthand.part place) tokens = true) :
    accepts shorthand.name tokens = true := by
  have areSides :
      shorthands.all fun shorthand => shorthand.places.all fun place =>
        (shape? (shorthand.part place)).any fun narrow =>
          (shape? shorthand.name).any narrow.isSideOf := by
    decide +kernel
  have areOwnSides := List.all_eq_true.mp areSides shorthand isShorthand
  have isSide := List.all_eq_true.mp areOwnSides place isPlace
  obtain ⟨narrow, isNarrow, someWide⟩ := (Option.any_eq_true _ _).mp isSide
  obtain ⟨wide, isWide, isSideOf⟩ := (Option.any_eq_true _ _).mp someWide
  rw [accepts, isNarrow] at accepted
  rw [accepts, isWide]
  exact Shape.within_of_isSideOf isSideOf tokens accepted

end Property

/--
Shapes are ordered by what they take. A color is a brush, a brush is one of the
colors of all sides, and these are parts of a border; a length is one of the
lengths of a box, which are parts of a border, too; and a length is a font, by
itself or with families behind it. So a property that stands for all sides takes
what the property of one side takes.
-/
theorem Shape.fits_of_narrower :
    color.Within brush ∧ brush.Within colors ∧ colors.Within border ∧
      length.Within box ∧ box.Within border ∧ length.Within font ∧
      (∀ sizes families : List Token,
        length.fits sizes = true →
        fontFamily.fits families = true →
        font.fits (sizes ++ families) = true) ∧
      ∀ shorthand ∈ Property.shorthands, ∀ place ∈ shorthand.places, ∀ tokens,
        Property.accepts (shorthand.part place) tokens = true →
        Property.accepts shorthand.name tokens = true :=
  ⟨color_within_brush, brush_within_colors, colors_within_border, length_within_box,
    box_within_border, length_within_font, fun _ _ => fits_font_append,
    fun _ isShorthand _ isPlace _ => Property.accepts_of_part isShorthand isPlace⟩

/-- A named color is a border, and a size in front of a quoted family is a font. -/
theorem Shape.fits_of_narrower_examples :
    let white : Token := ⟨⟨"White", 0, 5, 1, 1⟩, .identifier⟩
    let size : Token := ⟨⟨"10.5PT", 0, 6, 1, 1⟩, .number⟩
    let family : Token := ⟨⟨"\"Noto Sans\"", 7, 11, 1, 8⟩, .string⟩
    let margin : Property.Shorthand := ⟨"margin", "", ["-top", "-right", "-bottom", "-left"]⟩
    (color.fits [white] = true ∧ border.fits [white] = true) ∧
      (length.fits [size] = true ∧ border.fits [size] = true ∧ font.fits [size] = true) ∧
      (fontFamily.fits [family] = true ∧ font.fits ([size] ++ [family]) = true) ∧
      (margin ∈ Property.shorthands ∧ "-left" ∈ margin.places ∧
        Property.accepts (margin.part "-left") [size] = true ∧
        Property.accepts margin.name [size] = true) := by
  intro white size family margin
  obtain ⟨isBrush, areColors, isBorder, isBox, isWidth, isFont, hasFamilies, isShorter⟩ :=
    fits_of_narrower
  have isColor : color.fits [white] = true := by decide +kernel
  have isLength : length.fits [size] = true := by decide +kernel
  have isFamily : fontFamily.fits [family] = true := by decide +kernel
  have isMargin : Property.accepts (margin.part "-left") [size] = true := by decide +kernel
  have isShorthand : margin ∈ Property.shorthands := by simp [Property.shorthands, margin]
  have isPlace : "-left" ∈ margin.places := by simp [margin]
  exact ⟨⟨isColor, isBorder _ (areColors _ (isBrush _ isColor))⟩,
    ⟨isLength, isWidth _ (isBox _ isLength), isFont _ isLength⟩,
    ⟨isFamily, hasFamilies _ _ isLength isFamily⟩,
    ⟨isShorthand, isPlace, isMargin, isShorter _ isShorthand _ isPlace _ isMargin⟩⟩

end QtSheet

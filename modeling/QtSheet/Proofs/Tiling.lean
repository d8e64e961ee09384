import QtSheet.Proofs.Stretch
import QtSheet.Proofs.Tile
import QtSheet.Sheet.Source

namespace QtSheet

/-!
# Nothing is lost and nothing is counted twice

The tokens of a style sheet and the findings about its characters are excerpts
of its text. They lie behind one another without overlap, and what they leave
uncovered is layout (`tokenize_tiled`). All of it is read off from the tiles.
-/

open Text

namespace Excerpt

/-- An excerpt begins and ends before another begins. -/
def Precedes (first second : Excerpt) : Prop :=
  first.start < second.start ∧ first.stop ≤ second.start

/-- An excerpt covers the character at an offset. -/
def Covers (excerpt : Excerpt) (offset : Nat) : Prop :=
  excerpt.start ≤ offset ∧ offset < excerpt.stop

/-- An excerpt has the characters of a text that its place says. -/
structure IsSliceOf (excerpt : Excerpt) (source : List Char) : Prop where
  first : 0 ≤ excerpt.start
  ordered : 0 ≤ excerpt.length
  within : excerpt.stop ≤ source.length
  text : excerpt.text.toList = (source.drop excerpt.start.toNat).take excerpt.length.toNat

end Excerpt

namespace TokenStream

/-- Neither a token nor a finding covers the character at an offset. -/
def Uncovered (stream : TokenStream) (offset : Nat) : Prop :=
  (∀ token ∈ stream.tokens, ¬ token.Covers offset) ∧
    (∀ diagnostic ∈ stream.diagnostics, ¬ diagnostic.Covers offset)

/-- Tokens and findings that a text is laid out with. -/
structure Tiled (stream : TokenStream) (source : List Char) : Prop where
  /-- There is one token of the end, the last one. -/
  ends :
    ∃ (body : List Token) (last : Token),
      stream.tokens = body ++ [last] ∧
        last.kind = .endOfInput ∧ last.start = source.length ∧ last.length = 0 ∧
        ∀ token ∈ body, token.kind ≠ .endOfInput ∧ 0 < token.length
  tokenSlice :
    ∀ token ∈ stream.tokens, token.IsSliceOf source
  tokenOrder :
    stream.tokens.Pairwise fun first second => first.Precedes second.toExcerpt
  diagnosticSlice :
    ∀ diagnostic ∈ stream.diagnostics, diagnostic.IsSliceOf source ∧ 0 < diagnostic.length
  diagnosticOrder :
    stream.diagnostics.Pairwise fun first second => first.Precedes second.toExcerpt
  apart :
    ∀ token ∈ stream.tokens, ∀ diagnostic ∈ stream.diagnostics,
      token.stop ≤ diagnostic.start ∨ diagnostic.stop ≤ token.start
  messages :
    ∀ diagnostic ∈ stream.diagnostics,
      (∃ what, diagnostic.message = "unexpected character " ++ what) ∨
        (∃ what, diagnostic.message = "unterminated " ++ what)
  unexpected :
    ∀ diagnostic ∈ stream.diagnostics, ∀ what,
      diagnostic.message = "unexpected character " ++ what → diagnostic.length = 1
  /-- A construct without its end is the last finding, and takes the rest of the text. -/
  unterminated :
    ∀ (front : List Diagnostic) (diagnostic : Diagnostic) (back : List Diagnostic) (what : String),
      stream.diagnostics = front ++ diagnostic :: back →
      diagnostic.message = "unterminated " ++ what →
      back = [] ∧ diagnostic.stop = source.length ∧
        ∀ token ∈ stream.tokens, diagnostic.start ≤ token.start → token.kind = .endOfInput
  uncovered :
    ∀ first stop,
      MaximalStretch stream.Uncovered source.length first stop →
      Layout ((source.drop first).take (stop - first))

end TokenStream

namespace Tile

/-- The excerpt of a token is that of its tile. -/
theorem excerpt_of_token?
    {tile : Tile}
    {token : Token}
    (isToken : tile.token? = some token) :
    token.toExcerpt = tile.excerpt ∧ tile.role = .token token.kind := by
  revert isToken
  fun_cases token? tile with
  | case1 kind isRole =>
      rintro ⟨⟩
      exact ⟨rfl, isRole⟩
  | case2 =>
      rintro ⟨⟩

/-- A finding made of a tile has its excerpt and its message. -/
theorem excerpt_of_diagnostic?
    {tile : Tile}
    {diagnostic : Diagnostic}
    (isFinding : tile.diagnostic? = some diagnostic) :
    diagnostic.toExcerpt = tile.excerpt ∧ tile.role = .finding diagnostic.message := by
  revert isFinding
  fun_cases diagnostic? tile with
  | case1 message isRole =>
      rintro ⟨⟩
      exact ⟨rfl, isRole⟩
  | case2 =>
      rintro ⟨⟩

/-- A tile that is not skipped is a token or a finding. -/
theorem exists_of_role_ne_skipped
    {tile : Tile}
    (notSkipped : tile.role ≠ .skipped) :
    (∃ token, tile.token? = some token) ∨ (∃ diagnostic, tile.diagnostic? = some diagnostic) := by
  unfold token? diagnostic?
  cases isRole : tile.role with
  | token kind =>
      exact .inl ⟨_, rfl⟩
  | finding message =>
      exact .inr ⟨_, rfl⟩
  | skipped =>
      exact absurd isRole notSkipped

namespace Laid

/-- No tile begins before the first position. -/
theorem offset_le
    {first last : Position}
    {tiles : List Tile}
    (laid : Laid first tiles last)
    {tile : Tile}
    (member : tile ∈ tiles) :
    first.offset ≤ tile.position.offset := by
  induction laid with
  | nil =>
      contradiction
  | cons _ _ inductionHypothesis =>
      rcases List.mem_cons.mp member with rfl | later
      · exact Nat.le_refl _
      · have behind := inductionHypothesis later
        rw [Position.offset_after] at behind
        omega

/-- Tiles that lie behind one another precede one another. -/
theorem pairwise_precedes
    {first last : Position}
    {tiles : List Tile}
    (laid : Laid first tiles last) :
    tiles.Pairwise fun first second => first.excerpt.Precedes second.excerpt := by
  induction laid with
  | nil =>
      exact .nil
  | cons nonempty restLaid inductionHypothesis =>
      refine .cons ?_ inductionHypothesis
      intro other member
      have behind := restLaid.offset_le member
      have positive := List.length_pos_iff.mpr nonempty
      rw [Position.offset_after] at behind
      simp only [Excerpt.Precedes, Excerpt.stop, excerpt, Excerpt.ofPosition]
      omega

/-- Of two tiles one precedes the other. -/
theorem precedes_or
    {first last : Position}
    {tiles : List Tile}
    (laid : Laid first tiles last)
    {tile other : Tile}
    (member : tile ∈ tiles)
    (otherMember : other ∈ tiles)
    (different : tile ≠ other) :
    tile.excerpt.Precedes other.excerpt ∨ other.excerpt.Precedes tile.excerpt := by
  obtain ⟨front, back, rfl⟩ := List.append_of_mem member
  have ordered := List.pairwise_append.mp laid.pairwise_precedes
  rcases List.mem_append.mp otherMember with inFront | behind
  · exact .inr (ordered.2.2 other inFront tile (by simp))
  · rcases List.mem_cons.mp behind with rfl | inBack
    · exact absurd rfl different
    · exact .inl ((List.pairwise_cons.mp ordered.2.1).1 other inBack)

/-- An offset is in a skipped tile when all tiles that cover it are skipped. -/
theorem inMarked_iff
    {first last : Position}
    {tiles : List Tile}
    (laid : Laid first tiles last)
    {offset : Nat}
    (within : offset < (tiles.flatMap Tile.text).length) :
    InMarked Tile.text (fun tile => tile.role = .skipped) tiles offset ↔
      ∀ tile ∈ tiles, tile.excerpt.Covers (first.offset + offset) → tile.role = .skipped := by
  induction laid generalizing offset with
  | nil =>
      contradiction
  | @cons tile rest stop _ restLaid inductionHypothesis =>
      rw [List.flatMap_cons, List.length_append] at within
      by_cases isHere : offset < tile.text.length
      · rw [inMarked_cons_of_lt isHere]
        constructor
        · intro isSkipped other member covers
          rcases List.mem_cons.mp member with rfl | later
          · exact isSkipped
          · have behind := restLaid.offset_le later
            rw [Position.offset_after] at behind
            simp only [Excerpt.Covers, excerpt, Excerpt.ofPosition] at covers
            omega
        · intro allSkipped
          refine allSkipped tile (by simp) ?_
          simp only [Excerpt.Covers, Excerpt.stop, excerpt, Excerpt.ofPosition]
          omega
      · obtain ⟨beyond, rfl⟩ := Nat.exists_eq_add_of_le (Nat.not_lt.mp isHere)
        rw [inMarked_cons_add, inductionHypothesis (by omega), Position.offset_after,
          Nat.add_assoc]
        constructor
        · intro restSkipped other member covers
          rcases List.mem_cons.mp member with rfl | later
          · simp only [Excerpt.Covers, Excerpt.stop, excerpt, Excerpt.ofPosition] at covers
            omega
          · exact restSkipped other later covers
        · intro allSkipped other member
          exact allSkipped other (by simp [member])

/-- The excerpt of a tile is a slice of the text that the tiles make up. -/
theorem isSliceOf
    {last : Position}
    {tiles : List Tile}
    (laid : Laid Position.first tiles last)
    {tile : Tile}
    (member : tile ∈ tiles) :
    tile.excerpt.IsSliceOf (tiles.flatMap Tile.text) ∧ 0 < tile.excerpt.length := by
  obtain ⟨front, back, rfl⟩ := List.append_of_mem member
  obtain ⟨place, nonempty⟩ := laid.position_eq
  have positive := List.length_pos_iff.mpr nonempty
  have offset : tile.position.offset = (front.flatMap Tile.text).length := by
    rw [place, Position.offset_after]
    exact Nat.zero_add _
  refine ⟨⟨?_, ?_, ?_, ?_⟩, ?_⟩
  · exact Int.natCast_nonneg _
  · exact Int.natCast_nonneg _
  · simp only [Excerpt.stop, excerpt, Excerpt.ofPosition, List.flatMap_append,
      List.flatMap_cons, List.length_append]
    omega
  · simp only [excerpt, Excerpt.ofPosition, offset, Int.toNat_natCast, List.flatMap_append,
      List.flatMap_cons, List.drop_left, List.take_left, String.toList_ofList]
  · exact Int.natCast_pos.mpr positive

end Laid

/-- Skipped tiles are layout. -/
theorem AllSound.layout_of_skipped
    {tiles skipped : List Tile}
    (allSound : AllSound tiles)
    (sublist : skipped <:+: tiles)
    (isSkipped : ∀ tile ∈ skipped, tile.role = .skipped) :
    Layout (skipped.flatMap Tile.text) := by
  induction skipped with
  | nil =>
      exact .nil
  | cons tile rest inductionHypothesis =>
      obtain ⟨front, back, shape⟩ := sublist
      have sound : tile.Sound (rest ++ back) := by
        rw [← shape, List.append_assoc] at allSound
        exact allSound.sound
      unfold Sound at sound
      rw [isSkipped tile (by simp)] at sound
      rw [List.flatMap_cons]
      refine sound.append (inductionHypothesis ?_ ?_)
      · exact ⟨front ++ [tile], back, by simpa using shape⟩
      · exact fun other member => isSkipped other (by simp [member])

end Tile

section Text

variable (source : String)

/-- The tiles that a text is laid out with. -/
def tilesOf : List Tile :=
  Joint.first.tiles (placedPieces source.toList)

/-- The tiles of a text lie one behind the other from its start to its end. -/
theorem laid_tilesOf :
    Tile.Laid Position.first (tilesOf source) (Position.first.after source.toList) := by
  have laid :=
    (Joint.laid_tiles Joint.fits_first Joint.closed_first (wellCut_pieces 0 source.toList)).1
  rw [text_pieces] at laid
  exact laid

/-- The tiles of a text put together are the text. -/
theorem text_tilesOf :
    (tilesOf source).flatMap Tile.text = source.toList := by
  have text :=
    (Joint.laid_tiles Joint.fits_first Joint.closed_first (wellCut_pieces 0 source.toList)).2
  rw [text_pieces] at text
  exact text

theorem allSound_tilesOf :
    Tile.AllSound (tilesOf source) :=
  Joint.allSound_tiles Joint.fits_first Joint.closed_first (wellCut_pieces 0 source.toList)

/-- The tokens of the pieces of a text are those among its tiles. -/
theorem tokens_placedPieces :
    Joint.first.tokens (placedPieces source.toList) = (tilesOf source).filterMap Tile.token? :=
  (Joint.tokens_tiles (wellCut_pieces 0 source.toList)).symm

/-- The tokens of a text are those among its tiles, and the end. -/
theorem tokens_tokenize :
    (tokenize source).tokens =
      (tilesOf source).filterMap Tile.token? ++ [endToken source.toList] := by
  rw [tokenize, tokens_placedPieces]

theorem diagnostics_tokenize :
    (tokenize source).diagnostics = (tilesOf source).filterMap Tile.diagnostic? :=
  (Joint.diagnostics_tiles Joint.first (placedPieces source.toList)).symm

end Text

section Tokens

variable {source : String}

/-- A token of a text is that of a tile, or the end. -/
theorem mem_tokens_tokenize
    {token : Token}
    (member : token ∈ (tokenize source).tokens) :
    (∃ tile ∈ tilesOf source, tile.token? = some token) ∨ token = endToken source.toList := by
  rw [tokens_tokenize] at member
  rcases List.mem_append.mp member with inBody | isEnd
  · exact .inl (List.mem_filterMap.mp inBody)
  · exact .inr (List.mem_singleton.mp isEnd)

/-- Every finding about a text is that of a tile. -/
theorem mem_diagnostics_tokenize
    {diagnostic : Diagnostic}
    (member : diagnostic ∈ (tokenize source).diagnostics) :
    ∃ tile ∈ tilesOf source, tile.diagnostic? = some diagnostic := by
  rw [diagnostics_tokenize] at member
  exact List.mem_filterMap.mp member

/-- The end of a text covers nothing, behind the whole text. -/
theorem isSliceOf_endToken :
    (endToken source.toList).IsSliceOf source.toList := by
  refine ⟨Int.natCast_nonneg _, Int.natCast_nonneg _, ?_, by simp [endToken, Excerpt.ofPosition]⟩
  simp [endToken, Excerpt.stop, Excerpt.ofPosition, Position.first]

/-- The tokens of a text are slices of it. -/
theorem isSliceOf_of_mem_tokens
    {token : Token}
    (member : token ∈ (tokenize source).tokens) :
    token.IsSliceOf source.toList := by
  rcases mem_tokens_tokenize member with ⟨tile, isTile, isToken⟩ | rfl
  · rw [(Tile.excerpt_of_token? isToken).1, ← text_tilesOf source]
    exact ((laid_tilesOf source).isSliceOf isTile).1
  · exact isSliceOf_endToken

/-- Every finding is at a stretch of the text that is not empty. -/
theorem isSliceOf_of_mem_diagnostics
    {diagnostic : Diagnostic}
    (member : diagnostic ∈ (tokenize source).diagnostics) :
    diagnostic.IsSliceOf source.toList ∧ 0 < diagnostic.length := by
  obtain ⟨tile, isTile, isFinding⟩ := mem_diagnostics_tokenize member
  rw [(Tile.excerpt_of_diagnostic? isFinding).1, ← text_tilesOf source]
  exact (laid_tilesOf source).isSliceOf isTile

/-- No tile is the end of the input. -/
theorem kind_ne_endOfInput
    {token : Token}
    (member : token ∈ (tilesOf source).filterMap Tile.token?) :
    token.kind ≠ .endOfInput := by
  obtain ⟨tile, isTile, isToken⟩ := List.mem_filterMap.mp member
  obtain ⟨front, back, shape⟩ := List.append_of_mem isTile
  have allSound := allSound_tilesOf source
  rw [shape] at allSound
  have sound := allSound.sound
  unfold Tile.Sound at sound
  rw [(Tile.excerpt_of_token? isToken).2] at sound
  exact sound

/-- The last token is the end, and the only one. -/
theorem tokens_tokenize_ends :
    ∃ (body : List Token) (last : Token),
      (tokenize source).tokens = body ++ [last] ∧
        last.kind = .endOfInput ∧ last.start = source.toList.length ∧ last.length = 0 ∧
        ∀ token ∈ body, token.kind ≠ .endOfInput ∧ 0 < token.length := by
  refine ⟨_, _, tokens_tokenize source, rfl, ?_, rfl, ?_⟩
  · simp [endToken, Excerpt.ofPosition, Position.first]
  · intro token member
    obtain ⟨tile, isTile, isToken⟩ := List.mem_filterMap.mp member
    refine ⟨kind_ne_endOfInput member, ?_⟩
    rw [(Tile.excerpt_of_token? isToken).1]
    exact ((laid_tilesOf source).isSliceOf isTile).2

/-- The tokens of a text precede one another. -/
theorem pairwise_precedes_tokens :
    (tokenize source).tokens.Pairwise fun first second => first.Precedes second.toExcerpt := by
  rw [tokens_tokenize, List.pairwise_append]
  refine ⟨?_, List.pairwise_singleton _ _, ?_⟩
  · rw [List.pairwise_filterMap]
    refine (laid_tilesOf source).pairwise_precedes.imp ?_
    intro first second precedes token isToken other isOther
    rw [(Tile.excerpt_of_token? isToken).1, (Tile.excerpt_of_token? isOther).1]
    exact precedes
  · intro token member last isLast
    obtain ⟨tile, isTile, isToken⟩ := List.mem_filterMap.mp member
    obtain ⟨slice, positive⟩ := (laid_tilesOf source).isSliceOf isTile
    have within := slice.within
    rw [List.mem_singleton.mp isLast, (Tile.excerpt_of_token? isToken).1]
    rw [text_tilesOf, Excerpt.stop] at within
    simp only [Excerpt.Precedes, Excerpt.stop, endToken, Excerpt.ofPosition,
      Position.offset_after, Position.first]
    omega

/-- The findings stand in the order of their places. -/
theorem pairwise_precedes_diagnostics :
    (tokenize source).diagnostics.Pairwise
      fun first second => first.Precedes second.toExcerpt := by
  rw [diagnostics_tokenize, List.pairwise_filterMap]
  refine (laid_tilesOf source).pairwise_precedes.imp ?_
  intro first second precedes diagnostic isFinding other isOther
  rw [(Tile.excerpt_of_diagnostic? isFinding).1, (Tile.excerpt_of_diagnostic? isOther).1]
  exact precedes

/-- No token of a text overlaps a finding about its characters. -/
theorem apart_of_mem
    {token : Token}
    {diagnostic : Diagnostic}
    (isToken : token ∈ (tokenize source).tokens)
    (isFinding : diagnostic ∈ (tokenize source).diagnostics) :
    token.stop ≤ diagnostic.start ∨ diagnostic.stop ≤ token.start := by
  obtain ⟨tile, inTiles, isTile⟩ := mem_diagnostics_tokenize isFinding
  obtain ⟨sameExcerpt, isRole⟩ := Tile.excerpt_of_diagnostic? isTile
  rw [sameExcerpt]
  rcases mem_tokens_tokenize isToken with ⟨other, otherIn, isOther⟩ | rfl
  · obtain ⟨otherExcerpt, otherRole⟩ := Tile.excerpt_of_token? isOther
    have different : other ≠ tile := by
      rintro rfl
      rw [isRole] at otherRole
      contradiction
    rw [otherExcerpt]
    rcases (laid_tilesOf source).precedes_or otherIn inTiles different with before | behind
    · exact .inl before.2
    · exact .inr behind.2
  · have within := ((laid_tilesOf source).isSliceOf inTiles).1.within
    rw [text_tilesOf] at within
    right
    simpa [endToken, Excerpt.ofPosition, Position.first] using within

/-- What is said of a stray character is never said of an open construct. -/
private theorem unexpected_ne_unterminated (what other : String) :
    "unexpected character " ++ what ≠ "unterminated " ++ other := by
  intro same
  have sameCharacters := congrArg String.toList same
  rw [String.toList_append, String.toList_append] at sameCharacters
  have third := congrArg (fun characters => characters[2]?) sameCharacters
  simp at third

/-- A finding is about one character, or it is the last one and about the rest of the text. -/
theorem message_of_sound
    {tiles front back : List Tile}
    {tile : Tile}
    {diagnostic : Diagnostic}
    (allSound : Tile.AllSound tiles)
    (shape : tiles = front ++ tile :: back)
    (isFinding : tile.diagnostic? = some diagnostic) :
    (∃ what, diagnostic.message = "unexpected character " ++ what ∧ diagnostic.length = 1) ∨
      (∃ what, diagnostic.message = "unterminated " ++ what ∧ back = []) := by
  obtain ⟨sameExcerpt, isRole⟩ := Tile.excerpt_of_diagnostic? isFinding
  rw [shape] at allSound
  have sound := allSound.sound
  unfold Tile.Sound at sound
  rw [isRole] at sound
  rcases sound with ⟨character, isText, isMessage⟩ | ⟨atEnd, construct, isMessage⟩
  · refine .inl ⟨_, isMessage, ?_⟩
    rw [sameExcerpt]
    simp [Tile.excerpt, Excerpt.ofPosition, isText]
  · exact .inr ⟨_, isMessage, atEnd⟩

/-- Findings are about one character or about a construct without its end. -/
theorem message_of_mem_diagnostics
    {diagnostic : Diagnostic}
    (member : diagnostic ∈ (tokenize source).diagnostics) :
    (∃ what, diagnostic.message = "unexpected character " ++ what ∧ diagnostic.length = 1) ∨
      (∃ what, diagnostic.message = "unterminated " ++ what) := by
  obtain ⟨tile, isTile, isFinding⟩ := mem_diagnostics_tokenize member
  obtain ⟨front, back, shape⟩ := List.append_of_mem isTile
  rcases message_of_sound (allSound_tilesOf source) shape isFinding with
    unexpected | ⟨what, isMessage, _⟩
  · exact .inl unexpected
  · exact .inr ⟨what, isMessage⟩

/-- A construct without its end is the last finding, and takes the rest of the text. -/
theorem eq_nil_of_unterminated
    {front back : List Diagnostic}
    {diagnostic : Diagnostic}
    {what : String}
    (shape : (tokenize source).diagnostics = front ++ diagnostic :: back)
    (isMessage : diagnostic.message = "unterminated " ++ what) :
    back = [] ∧ diagnostic.stop = source.toList.length ∧
      ∀ token ∈ (tokenize source).tokens,
        diagnostic.start ≤ token.start → token.kind = .endOfInput := by
  rw [diagnostics_tokenize] at shape
  obtain ⟨before, others, tilesShape, _, otherFindings⟩ := List.filterMap_eq_append_iff.mp shape
  obtain ⟨between, tile, behind, rfl, _, isFinding, rfl⟩ :=
    List.filterMap_eq_cons_iff.mp otherFindings
  rw [← List.append_assoc] at tilesShape
  obtain ⟨sameExcerpt, isRole⟩ := Tile.excerpt_of_diagnostic? isFinding
  have atEnd : behind = [] := by
    rcases message_of_sound (allSound_tilesOf source) tilesShape isFinding with
      ⟨_, otherMessage, _⟩ | ⟨_, _, atEnd⟩
    · exact absurd (otherMessage.symm.trans isMessage) (unexpected_ne_unterminated _ _)
    · exact atEnd
  subst atEnd
  refine ⟨rfl, ?_, ?_⟩
  · have laid := laid_tilesOf source
    have text := text_tilesOf source
    rw [tilesShape] at laid text
    rw [sameExcerpt, ← text]
    simp [Tile.excerpt, Excerpt.stop, Excerpt.ofPosition, laid.position_eq.1, Position.first,
      Int.add_assoc]
  · intro token member reached
    rcases mem_tokens_tokenize member with ⟨other, isTile, isToken⟩ | rfl
    · obtain ⟨otherExcerpt, otherRole⟩ := Tile.excerpt_of_token? isToken
      have ordered := (laid_tilesOf source).pairwise_precedes
      rw [tilesShape] at isTile ordered
      rcases List.mem_append.mp isTile with inFront | isLast
      · have precedes := (List.pairwise_append.mp ordered).2.2 other inFront tile (by simp)
        rw [sameExcerpt, otherExcerpt] at reached
        exact absurd precedes.1 (Int.not_lt.mpr reached)
      · rw [List.mem_singleton.mp isLast, isRole] at otherRole
        contradiction
    · rfl

/-- What neither tokens nor findings cover is in a skipped tile. -/
theorem uncovered_iff_inMarked
    {offset : Nat}
    (within : offset < source.toList.length) :
    (tokenize source).Uncovered offset ↔
      InMarked Tile.text (fun tile => tile.role = .skipped) (tilesOf source) offset := by
  have inTiles : offset < ((tilesOf source).flatMap Tile.text).length := by
    rw [text_tilesOf]
    exact within
  rw [(laid_tilesOf source).inMarked_iff inTiles,
    show Position.first.offset + offset = offset from Nat.zero_add offset]
  constructor
  · rintro ⟨noToken, noFinding⟩ tile isTile covers
    refine Classical.byContradiction fun notSkipped => ?_
    rcases Tile.exists_of_role_ne_skipped notSkipped with ⟨token, isToken⟩ | ⟨diagnostic, isFinding⟩
    · refine noToken token ?_ ?_
      · rw [tokens_tokenize]
        exact List.mem_append_left _ (List.mem_filterMap.mpr ⟨tile, isTile, isToken⟩)
      · rw [(Tile.excerpt_of_token? isToken).1]
        exact covers
    · refine noFinding diagnostic ?_ ?_
      · rw [diagnostics_tokenize]
        exact List.mem_filterMap.mpr ⟨tile, isTile, isFinding⟩
      · rw [(Tile.excerpt_of_diagnostic? isFinding).1]
        exact covers
  · intro allSkipped
    refine ⟨?_, ?_⟩
    · intro token member covers
      rcases mem_tokens_tokenize member with ⟨tile, isTile, isToken⟩ | rfl
      · obtain ⟨sameExcerpt, isRole⟩ := Tile.excerpt_of_token? isToken
        rw [sameExcerpt] at covers
        rw [allSkipped tile isTile covers] at isRole
        contradiction
      · simp only [Excerpt.Covers, Excerpt.stop, endToken, Excerpt.ofPosition,
          List.length_nil] at covers
        omega
    · intro diagnostic member covers
      obtain ⟨tile, isTile, isFinding⟩ := mem_diagnostics_tokenize member
      obtain ⟨sameExcerpt, isRole⟩ := Tile.excerpt_of_diagnostic? isFinding
      rw [sameExcerpt] at covers
      rw [allSkipped tile isTile covers] at isRole
      contradiction

/-- A longest stretch that is not covered is layout. -/
theorem layout_of_uncovered
    {first stop : Nat}
    (stretch :
      MaximalStretch (tokenize source).Uncovered source.toList.length first stop) :
    Layout ((source.toList.drop first).take (stop - first)) := by
  have inTiles := stretch.congr fun _ => uncovered_iff_inMarked
  rw [← text_tilesOf source] at inTiles ⊢
  have nonempty : ∀ tile ∈ tilesOf source, tile.text ≠ [] := by
    intro tile isTile
    obtain ⟨front, back, shape⟩ := List.append_of_mem isTile
    have laid := laid_tilesOf source
    rw [shape] at laid
    exact laid.position_eq.2
  obtain ⟨front, middle, back, shape, rfl, rfl, isSkipped, _, _⟩ := inTiles.exists_blocks nonempty
  have layout : Layout (middle.flatMap Tile.text) :=
    (allSound_tilesOf source).layout_of_skipped ⟨front, back, by rw [shape, List.append_assoc]⟩
      isSkipped
  simpa [shape] using layout

end Tokens

/-- The tokens in front of the end are those of the pieces. -/
theorem tokensBeforeEnd_tokenize (source : String) :
    tokensBeforeEnd (tokenize source).tokens =
      Joint.first.tokens (placedPieces source.toList) := by
  rw [tokensBeforeEnd, tokens_tokenize, tokens_placedPieces, List.takeWhile_append_of_pos]
  · exact List.append_nil _
  · intro token member
    exact decide_eq_true (kind_ne_endOfInput member)

/-- The end of the tokens is the end of the text. -/
theorem endOfTokens_tokenize (source : String) :
    endOfTokens (tokenize source).tokens = endToken source.toList := by
  have noEnd :
      ((tilesOf source).filterMap Tile.token?).find?
        (fun token => token.kind = .endOfInput) = none := by
    rw [List.find?_eq_none]
    intro token member isEnd
    exact kind_ne_endOfInput member (of_decide_eq_true isEnd)
  rw [endOfTokens, tokens_tokenize, List.find?_append, noEnd]
  rfl

/-- The tokens of a style sheet and the findings about its characters tile its text. -/
theorem tokenize_tiled (source : String) :
    (tokenize source).Tiled source.toList where
  ends := tokens_tokenize_ends
  tokenSlice _ := isSliceOf_of_mem_tokens
  tokenOrder := pairwise_precedes_tokens
  diagnosticSlice _ := isSliceOf_of_mem_diagnostics
  diagnosticOrder := pairwise_precedes_diagnostics
  apart _ isToken _ := apart_of_mem isToken
  messages diagnostic member := by
    rcases message_of_mem_diagnostics member with ⟨what, isMessage, _⟩ | unterminated
    · exact .inl ⟨what, isMessage⟩
    · exact .inr unterminated
  unexpected diagnostic member what isMessage := by
    rcases message_of_mem_diagnostics member with ⟨_, _, isOne⟩ | ⟨_, otherMessage⟩
    · exact isOne
    · exact absurd (isMessage.symm.trans otherMessage) (unexpected_ne_unterminated _ _)
  unterminated _ _ _ _ := eq_nil_of_unterminated
  uncovered _ _ := layout_of_uncovered

end QtSheet

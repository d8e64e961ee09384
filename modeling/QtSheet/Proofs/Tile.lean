import QtSheet.Proofs.Layout
import QtSheet.Token.Stream

namespace QtSheet

/-!
# Tiles

The text of a style sheet is laid out with tiles: tokens, findings and skipped
stretches. In contrast to the pieces, a tile is what the stream makes of a
stretch: the gap in front of a part of a selector is the tile of a combinator,
and what becomes of a gap is known only when the next token is there.

The tiles lie one behind the other and put together they are the text
(`laid_tiles`), each is what its role asks for (`allSound_tiles`), and the
tokens and findings are read off from them (`tokens_tiles`, `diagnostics_tiles`).
-/

open Text

/-- What becomes of a stretch of a text. -/
inductive Role where
  | token (kind : Kind)
  | finding (message : String)
  | skipped
  deriving Repr, DecidableEq

/-- A stretch of a text in its place, with what becomes of it. -/
structure Tile where
  position : Position
  text : List Char
  role : Role
  deriving Repr, DecidableEq

namespace Tile

/-- The characters of a tile, with their place. -/
def excerpt (tile : Tile) : Excerpt :=
  Excerpt.ofPosition tile.position tile.text

/-- The token that a tile is. -/
def token? (tile : Tile) : Option Token :=
  match tile.role with
  | .token kind => some { toExcerpt := tile.excerpt, kind := kind }
  | _ => none

/-- The finding that a tile is. -/
def diagnostic? (tile : Tile) : Option Diagnostic :=
  match tile.role with
  | .finding message =>
      some { toExcerpt := tile.excerpt, severity := .lexical, message := message }
  | _ => none

/-- The tiles lie one behind the other from a position to another, and none is empty. -/
inductive Laid : Position → List Tile → Position → Prop where
  | nil
      {position : Position} :
      Laid position [] position
  | cons
      {tile : Tile}
      {rest : List Tile}
      {stop : Position} :
      tile.text ≠ [] →
      Laid (tile.position.after tile.text) rest stop →
      Laid tile.position (tile :: rest) stop

namespace Laid

/-- Tiles that go on where others end lie behind them. -/
theorem append
    {first middle last : Position}
    {front back : List Tile}
    (frontLaid : Laid first front middle)
    (backLaid : Laid middle back last) :
    Laid first (front ++ back) last := by
  induction frontLaid with
  | nil =>
      exact backLaid
  | cons nonempty _ inductionHypothesis =>
      exact .cons nonempty (inductionHypothesis backLaid)

/-- A tile that is not empty lies from its position to the end of its text. -/
theorem singleton
    (tile : Tile)
    (nonempty : tile.text ≠ []) :
    Laid tile.position [tile] (tile.position.after tile.text) :=
  .cons nonempty .nil

/-- A tile stands behind the text of those in front of it, and is not empty. -/
theorem position_eq
    {first last : Position}
    {front back : List Tile}
    {tile : Tile}
    (laid : Laid first (front ++ tile :: back) last) :
    tile.position = first.after (front.flatMap Tile.text) ∧ tile.text ≠ [] := by
  induction front generalizing first with
  | nil =>
      cases laid with
      | cons nonempty _ =>
          exact ⟨rfl, nonempty⟩
  | cons head others inductionHypothesis =>
      cases laid with
      | cons _ rest =>
          rw [List.flatMap_cons, Position.after_append]
          exact inductionHypothesis rest

end Laid

/-- The text of a tile is what its role asks for. -/
def Sound (tile : Tile) (behind : List Tile) : Prop :=
  match tile.role with
  | .token kind => kind ≠ .endOfInput
  | .finding message =>
      (∃ character, tile.text = [character] ∧
        message = "unexpected character " ++ quoted (String.singleton character)) ∨
      (behind = [] ∧ ∃ construct : Construct, message = "unterminated " ++ construct.label)
  | .skipped => Layout tile.text

/-- The texts of all tiles are what their roles ask for. -/
inductive AllSound : List Tile → Prop where
  | nil :
      AllSound []
  | cons
      {tile : Tile}
      {rest : List Tile} :
      tile.Sound rest →
      AllSound rest →
      AllSound (tile :: rest)

/-- Each of some tiles is sound with those behind it. -/
theorem AllSound.sound
    {front back : List Tile}
    {tile : Tile}
    (allSound : AllSound (front ++ tile :: back)) :
    tile.Sound back := by
  induction front with
  | nil =>
      cases allSound with
      | cons sound _ =>
          exact sound
  | cons head others inductionHypothesis =>
      cases allSound with
      | cons _ restSound =>
          exact inductionHypothesis restSound

end Tile

namespace Joint

/-- The gap that is still open, as a tile with a role. -/
def gapTiles (joint : Joint) (role : Role) : List Tile :=
  match joint.gap? with
  | none => []
  | some (position, text) => [⟨position, text, role⟩]

/-- What becomes of the open gap in front of a token. -/
def gapRole (joint : Joint) (kind : Kind) : Role :=
  if (joint.combinator? kind).isSome then .token .combinator else .skipped

/-- The tiles that one more piece settles. A gap outside of all braces is settled later. -/
def laid (joint : Joint) (placed : PlacedPiece) : List Tile :=
  match placed.piece with
  | .gap text =>
      if joint.depth = 0 then
        []
      else
        [⟨placed.position, text, .skipped⟩]
  | .token kind text =>
      joint.gapTiles (joint.gapRole kind) ++ [⟨placed.position, text, .token kind⟩]
  | .stray character =>
      joint.gapTiles .skipped ++
        [⟨placed.position, [character],
          .finding ("unexpected character " ++ quoted (String.singleton character))⟩]
  | .unterminated construct text =>
      joint.gapTiles .skipped ++
        [⟨placed.position, text, .finding ("unterminated " ++ construct.label)⟩]

/-- What is left open after one more piece and its tiles. -/
def settle (joint : Joint) (placed : PlacedPiece) : Joint :=
  match placed.piece with
  | .unterminated _ _ => { joint with gap? := none }
  | _ => joint.next placed

/-- The tiles of placed pieces, after what has been read before. -/
def tiles (joint : Joint) : List PlacedPiece → List Tile
  | [] => joint.gapTiles .skipped
  | placed :: rest => joint.laid placed ++ (joint.settle placed).tiles rest

/-- The gap that is left open ends where the next piece begins, and it is layout. -/
structure Fits (joint : Joint) (position : Position) : Prop where
  ends : ∀ start text, joint.gap? = some (start, text) → start.after text = position
  nonempty : ∀ start text, joint.gap? = some (start, text) → text ≠ []
  layout : ∀ start text, joint.gap? = some (start, text) → Layout text

/-- Inside of braces no gap is left open. -/
def Closed (joint : Joint) : Prop :=
  joint.depth ≠ 0 → joint.gap? = none

/-- Nothing left open fits everywhere. -/
theorem fits_of_gap?_eq_none
    {joint : Joint}
    (noGap : joint.gap? = none)
    (position : Position) :
    joint.Fits position := by
  constructor <;> intro start text isGap <;> rw [noGap] at isGap <;> contradiction

theorem fits_first : first.Fits Position.first :=
  fits_of_gap?_eq_none rfl _

theorem closed_first : first.Closed :=
  fun _ => rfl

/-- Where the tiles to come begin. -/
def start (joint : Joint) (position : Position) : Position :=
  match joint.gap? with
  | none => position
  | some (start, _) => start

/-- The characters of the open gap. -/
def gapText (joint : Joint) : List Char :=
  match joint.gap? with
  | none => []
  | some (_, text) => text

/-- The tile of the open gap lies in front of the next piece. -/
theorem laid_gapTiles
    {joint : Joint}
    {position : Position}
    (fits : joint.Fits position)
    (role : Role) :
    Tile.Laid (joint.start position) (joint.gapTiles role) position := by
  unfold start gapTiles
  cases gap : joint.gap? with
  | none =>
      exact .nil
  | some found =>
      obtain ⟨start, text⟩ := found
      dsimp only
      rw [← fits.ends start text gap]
      exact .singleton ⟨start, text, role⟩ (fits.nonempty start text gap)

/-- The tile of the open gap has its characters. -/
theorem text_gapTiles (joint : Joint) (role : Role) :
    (joint.gapTiles role).flatMap Tile.text = joint.gapText := by
  unfold gapTiles gapText
  cases joint.gap? with
  | none =>
      rfl
  | some found =>
      simp

/-- A gap outside of all braces makes the open gap longer. -/
theorem fits_widen
    {joint : Joint}
    {position : Position}
    {text : List Char}
    (fits : joint.Fits position)
    (nonempty : text ≠ [])
    (layout : Layout text) :
    Fits { joint with gap? := some (joint.widen position text) } (position.after text) ∧
      start { joint with gap? := some (joint.widen position text) } (position.after text) =
        joint.start position ∧
      gapText { joint with gap? := some (joint.widen position text) } =
        joint.gapText ++ text := by
  unfold widen start gapText
  cases gap : joint.gap? with
  | none =>
      refine ⟨⟨?_, ?_, ?_⟩, rfl, rfl⟩ <;> intro start other same <;> cases same
      · rfl
      · exact nonempty
      · exact layout
  | some found =>
      obtain ⟨begun, before⟩ := found
      refine ⟨⟨?_, ?_, ?_⟩, rfl, rfl⟩ <;> intro start other same <;> cases same
      · rw [Position.after_append, fits.ends begun before gap]
      · simp [nonempty]
      · exact (fits.layout begun before gap).append layout

/-- Inside of braces a gap leaves open what was open, and outside nothing is lost either. -/
theorem laid_step
    {joint : Joint}
    {position : Position}
    {piece : Piece}
    {behind : List Piece}
    (fits : joint.Fits position)
    (closed : joint.Closed)
    (isCut : piece.WellCut behind) :
    Tile.Laid (joint.start position) (joint.laid ⟨position, piece⟩)
        ((joint.settle ⟨position, piece⟩).start (position.after piece.text)) ∧
      (joint.settle ⟨position, piece⟩).Fits (position.after piece.text) ∧
      (joint.laid ⟨position, piece⟩).flatMap Tile.text ++
          (joint.settle ⟨position, piece⟩).gapText =
        joint.gapText ++ piece.text := by
  have behindGap :
      ∀ (gapRole role : Role) (text : List Char), text ≠ [] →
        Tile.Laid (joint.start position)
            (joint.gapTiles gapRole ++ [Tile.mk position text role]) (position.after text) ∧
          (joint.gapTiles gapRole ++ [Tile.mk position text role]).flatMap Tile.text =
            joint.gapText ++ text := by
    intro gapRole role text nonempty
    refine ⟨(laid_gapTiles fits gapRole).append (.singleton ⟨position, text, role⟩ nonempty), ?_⟩
    rw [List.flatMap_append, text_gapTiles]
    simp
  cases piece with
  | gap text =>
      by_cases outside : joint.depth = 0
      · have gapNonempty : text ≠ [] := isCut.nonempty
        obtain ⟨widened, sameStart, sameText⟩ :=
          fits_widen fits gapNonempty (isCut.layout text rfl)
        simp only [laid, settle, next, if_pos outside, Piece.text]
        refine ⟨?_, widened, sameText⟩
        rw [sameStart]
        exact .nil
      · have noGap := closed outside
        simp only [laid, settle, next, if_neg outside]
        refine ⟨?_, fits_of_gap?_eq_none noGap _, ?_⟩
        · simp only [start, noGap]
          exact .singleton ⟨position, text, .skipped⟩ isCut.nonempty
        · simp [gapText, noGap, Piece.text]
  | token kind text =>
      obtain ⟨tilesLaid, tilesText⟩ :=
        behindGap (joint.gapRole kind) (.token kind) text isCut.nonempty
      exact ⟨tilesLaid, fits_of_gap?_eq_none rfl _, (List.append_nil _).trans tilesText⟩
  | stray character =>
      obtain ⟨tilesLaid, tilesText⟩ := behindGap .skipped _ [character] isCut.nonempty
      exact ⟨tilesLaid, fits_of_gap?_eq_none rfl _, (List.append_nil _).trans tilesText⟩
  | unterminated construct text =>
      obtain ⟨tilesLaid, tilesText⟩ := behindGap .skipped _ text isCut.nonempty
      exact ⟨tilesLaid, fits_of_gap?_eq_none rfl _, (List.append_nil _).trans tilesText⟩

/-- One more piece leaves no gap open inside of braces. -/
theorem closed_settle
    {joint : Joint}
    (closed : joint.Closed)
    (placed : PlacedPiece) :
    (joint.settle placed).Closed := by
  unfold settle next
  cases placed.piece with
  | gap text =>
      by_cases outside : joint.depth = 0
      · exact fun inside => absurd (by simp [outside]) inside
      · simp only [outside, ↓reduceIte]
        exact closed
  | token kind text =>
      exact fun _ => rfl
  | stray character =>
      exact fun _ => rfl
  | unterminated construct text =>
      exact fun _ => rfl

/-- The tiles of pieces lie one behind the other, and put together they are the text. -/
theorem laid_tiles
    {joint : Joint}
    {position : Position}
    {parts : List Piece}
    (fits : joint.Fits position)
    (closed : joint.Closed)
    (wellCut : WellCut parts) :
    Tile.Laid (joint.start position) (joint.tiles (place position parts))
        (position.after (parts.flatMap Piece.text)) ∧
      (joint.tiles (place position parts)).flatMap Tile.text =
        joint.gapText ++ parts.flatMap Piece.text := by
  induction wellCut generalizing joint position with
  | nil =>
      refine ⟨laid_gapTiles fits .skipped, ?_⟩
      rw [List.flatMap_nil, List.append_nil]
      exact text_gapTiles joint .skipped
  | cons isCut _ inductionHypothesis =>
      obtain ⟨stepLaid, stepFits, stepText⟩ := laid_step fits closed isCut
      obtain ⟨restLaid, restText⟩ :=
        inductionHypothesis stepFits (closed_settle closed _)
      rw [List.flatMap_cons]
      refine ⟨?_, ?_⟩
      · rw [Position.after_append]
        exact stepLaid.append restLaid
      · simp only [place, tiles]
        rw [List.flatMap_append, restText, ← List.append_assoc, stepText, List.append_assoc]

/-- The tiles of a gap in front of sound ones are sound. -/
private theorem allSound_gapTiles
    {joint : Joint}
    {position : Position}
    {role : Role}
    {rest : List Tile}
    (fits : joint.Fits position)
    (isGapRole : role = .skipped ∨ role = .token .combinator)
    (restSound : Tile.AllSound rest) :
    Tile.AllSound (joint.gapTiles role ++ rest) := by
  unfold gapTiles
  cases gap : joint.gap? with
  | none =>
      exact restSound
  | some found =>
      refine .cons ?_ restSound
      rcases isGapRole with rfl | rfl
      · exact fits.layout found.1 found.2 gap
      · exact Kind.noConfusion

/-- The tiles of pieces have the texts that their roles ask for. -/
theorem allSound_tiles
    {joint : Joint}
    {position : Position}
    {parts : List Piece}
    (fits : joint.Fits position)
    (closed : joint.Closed)
    (wellCut : WellCut parts) :
    Tile.AllSound (joint.tiles (place position parts)) := by
  induction wellCut generalizing joint position with
  | nil =>
      rw [← List.append_nil (joint.tiles (place position []))]
      exact allSound_gapTiles fits (.inl rfl) .nil
  | @cons piece rest isCut _ inductionHypothesis =>
      obtain ⟨_, stepFits, _⟩ := laid_step fits closed isCut
      have restSound := inductionHypothesis stepFits (closed_settle closed _)
      simp only [place, tiles]
      cases piece with
      | gap text =>
          simp only [laid]
          split
          · exact restSound
          · exact .cons (isCut.layout text rfl) restSound
      | token kind text =>
          simp only [laid, List.append_assoc]
          refine allSound_gapTiles fits ?_ (.cons isCut.noEnd restSound)
          unfold gapRole
          split
          · exact .inr rfl
          · exact .inl rfl
      | stray character =>
          simp only [laid, List.append_assoc]
          exact allSound_gapTiles fits (.inl rfl)
            (.cons (.inl ⟨character, rfl, rfl⟩) restSound)
      | unterminated construct text =>
          rw [isCut.last rfl] at restSound ⊢
          simp only [laid, List.append_assoc]
          exact allSound_gapTiles fits (.inl rfl)
            (.cons (.inr ⟨rfl, construct, rfl⟩) restSound)

/-- The token of a gap is the combinator that it stands for, if it does. -/
private theorem token?_gapTiles (joint : Joint) (kind : Kind) :
    (joint.gapTiles (joint.gapRole kind)).filterMap Tile.token? =
      (joint.combinator? kind).toList := by
  unfold gapTiles gapRole combinator?
  cases joint.gap? with
  | none =>
      rfl
  | some found =>
      cases joint.last? with
      | none =>
          rfl
      | some last =>
          dsimp only
          split <;> rfl

private theorem token?_gapTiles_skipped (joint : Joint) :
    (joint.gapTiles .skipped).filterMap Tile.token? = [] := by
  unfold gapTiles
  cases joint.gap? <;> rfl

/-- A gap has no findings. -/
private theorem diagnostic?_gapTiles
    {joint : Joint}
    {role : Role}
    (noFinding : ∀ message, role ≠ .finding message) :
    (joint.gapTiles role).filterMap Tile.diagnostic? = [] := by
  unfold gapTiles
  cases joint.gap? with
  | none =>
      rfl
  | some found =>
      cases role with
      | finding message =>
          exact absurd rfl (noFinding message)
      | token kind =>
          rfl
      | skipped =>
          rfl

private theorem gapRole_ne_finding (joint : Joint) (kind : Kind) (message : String) :
    joint.gapRole kind ≠ .finding message := by
  unfold gapRole
  split <;> simp

/-- The tokens among the tiles of a piece are those that it gives. -/
private theorem token?_laid (joint : Joint) (placed : PlacedPiece) :
    (joint.laid placed).filterMap Tile.token? = joint.emitted placed := by
  obtain ⟨position, piece⟩ := placed
  cases piece with
  | gap text =>
      simp only [laid, emitted]
      split <;> rfl
  | token kind text =>
      simp only [laid, emitted, List.filterMap_append, token?_gapTiles]
      rfl
  | stray character =>
      simp only [laid, emitted, List.filterMap_append, token?_gapTiles_skipped]
      rfl
  | unterminated construct text =>
      simp only [laid, emitted, List.filterMap_append, token?_gapTiles_skipped]
      rfl

/-- The findings among the tiles of a piece are those about it. -/
private theorem diagnostic?_laid (joint : Joint) (placed : PlacedPiece) :
    (joint.laid placed).filterMap Tile.diagnostic? = placed.diagnostic?.toList := by
  obtain ⟨position, piece⟩ := placed
  have noSkipped : ∀ message, Role.skipped ≠ .finding message := by simp
  cases piece with
  | gap text =>
      simp only [laid]
      split <;> rfl
  | token kind text =>
      simp only [laid, List.filterMap_append,
        diagnostic?_gapTiles (gapRole_ne_finding joint kind)]
      rfl
  | stray character =>
      simp only [laid, List.filterMap_append, diagnostic?_gapTiles noSkipped]
      rfl
  | unterminated construct text =>
      simp only [laid, List.filterMap_append, diagnostic?_gapTiles noSkipped]
      rfl

/-- The tokens of pieces are those among their tiles. -/
theorem tokens_tiles
    {joint : Joint}
    {position : Position}
    {parts : List Piece}
    (wellCut : WellCut parts) :
    (joint.tiles (place position parts)).filterMap Tile.token? =
      joint.tokens (place position parts) := by
  induction wellCut generalizing joint position with
  | nil =>
      exact token?_gapTiles_skipped joint
  | @cons piece rest isCut _ inductionHypothesis =>
      simp only [place, tiles, tokens, List.filterMap_append, token?_laid]
      cases piece with
      | unterminated construct text =>
          rw [isCut.last rfl]
          rfl
      | _ =>
          rw [inductionHypothesis]
          rfl

/-- The findings among the tiles are those about the pieces. -/
theorem diagnostics_tiles (joint : Joint) (placed : List PlacedPiece) :
    (joint.tiles placed).filterMap Tile.diagnostic? =
      placed.filterMap PlacedPiece.diagnostic? := by
  induction placed generalizing joint with
  | nil =>
      exact diagnostic?_gapTiles (by simp)
  | cons first rest inductionHypothesis =>
      rw [tiles, List.filterMap_append, diagnostic?_laid, inductionHypothesis]
      cases isFinding : first.diagnostic? <;> simp [isFinding]

end Joint

end QtSheet

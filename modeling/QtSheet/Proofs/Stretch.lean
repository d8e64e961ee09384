namespace QtSheet

/-!
# Stretches of a text

A text that is made of blocks, some of them marked. A stretch of marked
characters that cannot be made longer on either side begins and ends with a
block, so it is made of marked blocks itself.
-/

/-- A stretch of offsets with a property that no longer stretch around it has. -/
structure MaximalStretch
    (property : Nat → Prop)
    (size first stop : Nat) : Prop where
  nonempty : first < stop
  within : stop ≤ size
  inside : ∀ offset, first ≤ offset → offset < stop → property offset
  before : ∀ offset, offset + 1 = first → ¬ property offset
  after : stop < size → ¬ property stop

/-- Properties that agree on the text have the same stretches. -/
theorem MaximalStretch.congr
    {property other : Nat → Prop}
    {size first stop : Nat}
    (agree : ∀ offset, offset < size → (property offset ↔ other offset))
    (stretch : MaximalStretch property size first stop) :
    MaximalStretch other size first stop where
  nonempty := stretch.nonempty
  within := stretch.within
  inside offset reached before :=
    (agree offset (Nat.lt_of_lt_of_le before stretch.within)).mp
      (stretch.inside offset reached before)
  before offset isBefore holds := by
    have isInside : offset < size := by
      have long := stretch.nonempty
      have short := stretch.within
      omega
    exact stretch.before offset isBefore ((agree offset isInside).mpr holds)
  after isInside holds :=
    stretch.after isInside ((agree stop isInside).mpr holds)

section Blocks

variable (text : α → List β) (marked : α → Prop)

/-- An offset lies in a marked block. -/
inductive InMarked : List α → Nat → Prop where
  | here
      {block : α}
      {rest : List α}
      {offset : Nat} :
      marked block →
      offset < (text block).length →
      InMarked (block :: rest) offset
  | later
      {block : α}
      {rest : List α}
      {offset : Nat} :
      InMarked rest offset →
      InMarked (block :: rest) ((text block).length + offset)

variable {text marked}

/-- An offset in the first block is in a marked one when the block is marked. -/
theorem inMarked_cons_of_lt
    {block : α}
    {rest : List α}
    {offset : Nat}
    (isHere : offset < (text block).length) :
    InMarked text marked (block :: rest) offset ↔ marked block := by
  constructor
  · intro isMarked
    cases isMarked with
    | here isMarked _ =>
        exact isMarked
    | later _ =>
        exact absurd isHere (Nat.not_lt.mpr (Nat.le_add_right _ _))
  · intro isMarked
    exact .here isMarked isHere

/-- An offset behind the first block is in a marked one of the others. -/
theorem inMarked_cons_add
    {block : α}
    {rest : List α}
    {offset : Nat} :
    InMarked text marked (block :: rest) ((text block).length + offset) ↔
      InMarked text marked rest offset := by
  constructor
  · intro isMarked
    generalize moved : (text block).length + offset = place at isMarked
    cases isMarked with
    | here _ isHere =>
        subst moved
        exact absurd isHere (Nat.not_lt.mpr (Nat.le_add_right _ _))
    | later isMarked =>
        rw [Nat.add_left_cancel moved]
        exact isMarked
  · exact .later

/-- Whether an offset lies in a marked block can be decided, block by block. -/
instance InMarked.decidable [DecidablePred marked] :
    (blocks : List α) → (offset : Nat) → Decidable (InMarked text marked blocks offset)
  | [], _ =>
      .isFalse nofun
  | block :: rest, offset =>
      if isHere : offset < (text block).length then
        decidable_of_iff (marked block) (inMarked_cons_of_lt isHere).symm
      else
        have := InMarked.decidable rest (offset - (text block).length)
        decidable_of_iff (InMarked text marked rest (offset - (text block).length)) (by
          rw [← inMarked_cons_add, Nat.add_sub_cancel' (Nat.not_lt.mp isHere)])

/-- A stretch at the front of some blocks, with all that is marked there, is made of blocks. -/
private theorem exists_blocks_of_front
    {blocks : List α}
    {stop : Nat}
    (nonempty : ∀ block ∈ blocks, text block ≠ [])
    (within : stop ≤ (blocks.flatMap text).length)
    (inside : ∀ offset, offset < stop → InMarked text marked blocks offset)
    (after :
      stop < (blocks.flatMap text).length → ¬ InMarked text marked blocks stop) :
    ∃ middle back,
      blocks = middle ++ back ∧
        (middle.flatMap text).length = stop ∧
        (∀ block ∈ middle, marked block) ∧
        (∀ block ∈ back.head?, ¬ marked block) := by
  induction blocks generalizing stop with
  | nil =>
      refine ⟨[], [], rfl, ?_, by simp, by simp⟩
      exact (Nat.le_zero.mp within).symm
  | cons block rest inductionHypothesis =>
      have positive : 0 < (text block).length :=
        List.length_pos_iff.mpr (nonempty block (by simp))
      rw [List.flatMap_cons, List.length_append] at within after
      by_cases isEmpty : stop = 0
      · subst isEmpty
        refine ⟨[], block :: rest, rfl, rfl, by simp, ?_⟩
        intro other isFirst isMarked
        cases isFirst
        exact after (by omega) (.here isMarked positive)
      · have isMarked : marked block :=
          (inMarked_cons_of_lt positive).mp (inside 0 (Nat.pos_of_ne_zero isEmpty))
        have whole : (text block).length ≤ stop := by
          refine Nat.not_lt.mp fun cutShort => ?_
          exact after (by omega) (.here isMarked cutShort)
        obtain ⟨beyond, rfl⟩ := Nat.exists_eq_add_of_le whole
        obtain ⟨middle, back, rfl, length, allMarked, stops⟩ :=
          inductionHypothesis
            (fun other member => nonempty other (by simp [member]))
            (Nat.le_of_add_le_add_left within)
            (fun offset before =>
              inMarked_cons_add.mp (inside _ (Nat.add_lt_add_left before _)))
            (fun before isMarked =>
              after (Nat.add_lt_add_left before _) (.later isMarked))
        refine ⟨block :: middle, back, rfl, ?_, ?_, stops⟩
        · rw [List.flatMap_cons, List.length_append, length]
        · intro other member
          rcases List.mem_cons.mp member with rfl | inMiddle
          · exact isMarked
          · exact allMarked other inMiddle

/--
A stretch of marked offsets that cannot be made longer is made of marked
blocks, and the blocks next to it are not marked.
-/
theorem MaximalStretch.exists_blocks
    {blocks : List α}
    {first stop : Nat}
    (nonempty : ∀ block ∈ blocks, text block ≠ [])
    (stretch :
      MaximalStretch (InMarked text marked blocks)
        (blocks.flatMap text).length first stop) :
    ∃ front middle back,
      blocks = front ++ (middle ++ back) ∧
        (front.flatMap text).length = first ∧
        first + (middle.flatMap text).length = stop ∧
        (∀ block ∈ middle, marked block) ∧
        (∀ block ∈ front.getLast?, ¬ marked block) ∧
        (∀ block ∈ back.head?, ¬ marked block) := by
  induction blocks generalizing first stop with
  | nil =>
      have short := stretch.within
      have long := stretch.nonempty
      simp only [List.flatMap_nil, List.length_nil] at short
      omega
  | cons block rest inductionHypothesis =>
      have restNonempty : ∀ other ∈ rest, text other ≠ [] :=
        fun other member => nonempty other (by simp [member])
      by_cases atFront : first = 0
      · subst atFront
        obtain ⟨middle, back, shape, length, allMarked, stops⟩ :=
          exists_blocks_of_front nonempty stretch.within
            (fun offset before => stretch.inside offset (Nat.zero_le _) before) stretch.after
        exact ⟨[], middle, back, shape, rfl, by rw [length, Nat.zero_add], allMarked,
          by simp, stops⟩
      · -- A stretch that begins inside of a block could begin one offset earlier.
        have whole : (text block).length ≤ first := by
          refine Nat.not_lt.mp fun cutShort => ?_
          have isMarked : marked block :=
            (inMarked_cons_of_lt cutShort).mp
              (stretch.inside first (Nat.le_refl _) stretch.nonempty)
          exact stretch.before (first - 1) (Nat.succ_pred_eq_of_ne_zero atFront)
            (.here isMarked (Nat.lt_of_le_of_lt (Nat.sub_le _ _) cutShort))
        obtain ⟨first, rfl⟩ := Nat.exists_eq_add_of_le whole
        obtain ⟨stop, rfl⟩ :=
          Nat.exists_eq_add_of_le (Nat.le_trans whole (Nat.le_of_lt stretch.nonempty))
        have within := stretch.within
        rw [List.flatMap_cons, List.length_append] at within
        have restStretch :
            MaximalStretch (InMarked text marked rest)
              (rest.flatMap text).length first stop := by
          refine ⟨Nat.lt_of_add_lt_add_left stretch.nonempty,
            Nat.le_of_add_le_add_left within, ?_, ?_, ?_⟩
          · intro offset reached before
            exact inMarked_cons_add.mp
              (stretch.inside _ (Nat.add_le_add_left reached _) (Nat.add_lt_add_left before _))
          · rintro offset rfl isMarked
            exact stretch.before _ (Nat.add_assoc _ _ _) (.later isMarked)
          · intro before isMarked
            refine stretch.after ?_ (.later isMarked)
            rw [List.flatMap_cons, List.length_append]
            exact Nat.add_lt_add_left before _
        obtain ⟨front, middle, back, rfl, frontLength, length, allMarked, frontStops, stops⟩ :=
          inductionHypothesis restNonempty restStretch
        refine ⟨block :: front, middle, back, rfl, ?_, ?_, allMarked, ?_, stops⟩
        · rw [List.flatMap_cons, List.length_append, frontLength]
        · rw [← length, Nat.add_assoc]
        · intro other isLast isMarked
          cases front with
          | nil =>
              cases isLast
              have positive : 0 < (text block).length :=
                List.length_pos_iff.mpr (nonempty block (by simp))
              simp only [List.flatMap_nil, List.length_nil] at frontLength
              subst frontLength
              exact stretch.before ((text block).length - 1) (by omega)
                (.here isMarked (by omega))
          | cons next others =>
              rw [List.getLast?_cons_cons] at isLast
              exact frontStops other isLast isMarked

end Blocks

end QtSheet

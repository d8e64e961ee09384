import Mathlib.Data.List.Nodup
import QtSheet.Proofs.Reread
import QtSheet.Proofs.Subject

namespace QtSheet

/-!
# What the checks blame

Everything that a check looks at has a site, which says where in a sheet it is.
The checks of a text that is a style sheet blame each site that is at fault, each
once, and nothing else (`exists_isVerdict`). What they find is in the order of the
text for each check, and no two findings overlap.
-/

section Listing

variable {Index Item InnerIndex InnerItem : Type}

/-- Items with the places at which they can be looked up: all of these, and each once. -/
structure Lists (look : Index → Option Item) (entries : List (Item × Index)) : Prop where
  once : (entries.map Prod.snd).Nodup
  entry : ∀ item index, (item, index) ∈ entries ↔ look index = some item

/-- What is listed within the items of a listing, with both places. -/
def nested
    (entries : List (Item × Index))
    (within : Item → List (InnerItem × InnerIndex)) :
    List (InnerItem × Index × InnerIndex) :=
  entries.flatMap fun entry =>
    (within entry.1).map fun inner => (inner.1, entry.2, inner.2)

/-- What is found about the items of a listing, with the places of the items. -/
def foundAmong
    (entries : List (Item × Index))
    (find? : Item → Option InnerItem) :
    List (InnerItem × Index) :=
  entries.filterMap fun entry => (find? entry.1).map fun found => (found, entry.2)

/-- Nested entries hold the items within each item. -/
theorem map_fst_nested
    (entries : List (Item × Index))
    (within : Item → List (InnerItem × InnerIndex)) :
    (nested entries within).map Prod.fst =
      (entries.map Prod.fst).flatMap fun item => (within item).map Prod.fst := by
  simp [nested, List.map_flatMap, List.flatMap_map, Function.comp_def]

/-- The entries of what is found among items hold what is found. -/
theorem map_fst_foundAmong
    (entries : List (Item × Index))
    (find? : Item → Option InnerItem) :
    (foundAmong entries find?).map Prod.fst = (entries.map Prod.fst).filterMap find? := by
  rw [foundAmong, List.map_filterMap, List.filterMap_map]
  simp [Function.comp_def]

namespace Lists

variable {look : Index → Option Item} {entries : List (Item × Index)}

/-- The items of a list are looked up by their number. -/
theorem zipIdx (items : List Item) :
    Lists (fun index => items[index]?) items.zipIdx := by
  constructor
  · rw [List.zipIdx_map_snd]
    exact List.nodup_range'
  · intro item index
    exact List.mk_mem_zipIdx_iff_getElem?

/-- Items within items are looked up by two places. -/
theorem nest
    {lookWithin : Item → InnerIndex → Option InnerItem}
    {within : Item → List (InnerItem × InnerIndex)}
    (listed : Lists look entries)
    (inner : ∀ item, Lists (lookWithin item) (within item)) :
    Lists (fun index => (look index.1).bind fun item => lookWithin item index.2)
      (nested entries within) := by
  constructor
  · rw [nested, List.map_flatMap]
    refine List.pairwise_flatMap.mpr ⟨?_, ?_⟩
    · intro entry _
      have ownOnce : (((within entry.1).map Prod.snd).map (Prod.mk entry.2)).Nodup :=
        (inner entry.1).once.map fun _ _ same => (Prod.mk.inj same).2
      rw [List.map_map] at ownOnce ⊢
      exact ownOnce
    · refine (List.pairwise_map.mp listed.once).imp ?_
      intro entry other differ place isPlace otherPlace isOther same
      simp only [List.map_map, List.mem_map, Function.comp_apply] at isPlace isOther
      obtain ⟨_, _, rfl⟩ := isPlace
      obtain ⟨_, _, rfl⟩ := isOther
      exact differ (congrArg Prod.fst same)
  · rintro item ⟨index, innerIndex⟩
    simp only [nested, List.mem_flatMap, List.mem_map, Option.bind_eq_some_iff]
    constructor
    · rintro ⟨entry, isEntry, part, isPart, same⟩
      obtain ⟨rfl, rfl, rfl⟩ : part.1 = item ∧ entry.2 = index ∧ part.2 = innerIndex := by
        simpa using same
      exact ⟨entry.1, (listed.entry _ _).mp isEntry, ((inner _).entry _ _).mp isPart⟩
    · rintro ⟨outer, isOuter, isItem⟩
      exact ⟨(outer, index), (listed.entry _ _).mpr isOuter, (item, innerIndex),
        ((inner _).entry _ _).mpr isItem, rfl⟩

/-- What is found about some items is looked up where the items are. -/
theorem found
    (listed : Lists look entries)
    (find? : Item → Option InnerItem) :
    Lists (fun index => (look index).bind find?) (foundAmong entries find?) := by
  constructor
  · refine List.pairwise_map.mpr (List.pairwise_filterMap.mpr ?_)
    refine (List.pairwise_map.mp listed.once).imp ?_
    intro entry other differ found isFound otherFound isOther
    obtain ⟨_, _, rfl⟩ := Option.map_eq_some_iff.mp isFound
    obtain ⟨_, _, rfl⟩ := Option.map_eq_some_iff.mp isOther
    exact differ
  · intro found index
    simp only [foundAmong, List.mem_filterMap, Option.map_eq_some_iff, Option.bind_eq_some_iff]
    constructor
    · rintro ⟨entry, isEntry, _, isFound, same⟩
      obtain ⟨rfl, rfl⟩ := Prod.mk.inj same
      exact ⟨entry.1, (listed.entry _ _).mp isEntry, isFound⟩
    · rintro ⟨item, isItem, isFound⟩
      exact ⟨(item, index), (listed.entry _ _).mpr isItem, found, isFound, rfl⟩

/-- Items keep being listed when both the items and their places are given other names. -/
theorem rename
    {Place Thing : Type}
    {lookAgain : Place → Option Thing}
    (listed : Lists look entries)
    (thing : Item → Thing)
    (place : Index → Place)
    (injective : ∀ index other, place index = place other → index = other)
    (atPlace : ∀ index, lookAgain (place index) = (look index).map thing)
    (elsewhere : ∀ other, (∀ index, place index ≠ other) → lookAgain other = none) :
    Lists lookAgain (entries.map fun entry => (thing entry.1, place entry.2)) := by
  constructor
  · refine List.pairwise_map.mpr (List.pairwise_map.mpr ?_)
    refine (List.pairwise_map.mp listed.once).imp ?_
    intro entry other differ same
    exact differ (injective _ _ same)
  · intro item other
    simp only [List.mem_map, Prod.mk.injEq]
    constructor
    · rintro ⟨entry, isEntry, rfl, rfl⟩
      rw [atPlace, (listed.entry _ _).mp isEntry]
      rfl
    · intro isItem
      by_cases isPlace : ∃ index, place index = other
      · obtain ⟨index, rfl⟩ := isPlace
        rw [atPlace] at isItem
        obtain ⟨found, isFound, rfl⟩ := Option.map_eq_some_iff.mp isItem
        exact ⟨(found, index), (listed.entry _ _).mpr isFound, rfl, rfl⟩
      · rw [elsewhere other (not_exists.mp isPlace)] at isItem
        contradiction

end Lists

end Listing

/-- Where in a sheet a subject is, by the numbers of the parts that it is in. -/
inductive Site where
  | property (rule declaration : Nat)
  | value (rule declaration : Nat)
  | pseudoState (rule chain selector state : Nat)
  | subControl (rule chain selector : Nat)
  deriving Repr, DecidableEq

/-- The check that looks at a site. -/
def Site.check : Site → Check
  | .property _ _ => .knownProperties
  | .value _ _ => .propertyValues
  | .pseudoState _ _ _ _ => .pseudoStates
  | .subControl _ _ _ => .subControls

namespace Sheet

/-- The declaration of a sheet with some number, in the rule with some number. -/
def declarationAt? (sheet : Sheet) (rule declaration : Nat) : Option Declaration :=
  sheet.rules[rule]?.bind fun found => found.declarations[declaration]?

/-- The selector of a sheet with some number, in the chain and the rule with some number. -/
def selectorAt? (sheet : Sheet) (rule chain selector : Nat) : Option Selector :=
  sheet.rules[rule]?.bind fun found => found.chains[chain]?.bind fun among => among[selector]?

/-- The subject at a site of a sheet. -/
def subjectAt? (sheet : Sheet) : Site → Option Subject
  | .property rule declaration => (sheet.declarationAt? rule declaration).map .property
  | .value rule declaration => (sheet.declarationAt? rule declaration).map .value
  | .pseudoState rule chain selector state =>
      (sheet.selectorAt? rule chain selector).bind fun found =>
        found.pseudoStates[state]?.map (.pseudoState found)
  | .subControl rule chain selector =>
      (sheet.selectorAt? rule chain selector).bind fun found =>
        found.subControl?.map (.subControl found)

/-- The declarations of a sheet with their numbers. -/
def declarationEntries (sheet : Sheet) : List (Declaration × Nat × Nat) :=
  nested sheet.rules.zipIdx fun rule => rule.declarations.zipIdx

/-- The selectors of a sheet with their numbers. -/
def selectorEntries (sheet : Sheet) : List (Selector × Nat × Nat × Nat) :=
  nested sheet.rules.zipIdx fun rule => nested rule.chains.zipIdx fun chain => chain.zipIdx

/-- The subjects that a check looks at with their sites. -/
def subjectEntries (sheet : Sheet) : Check → List (Subject × Site)
  | .knownProperties =>
      sheet.declarationEntries.map fun entry =>
        (.property entry.1, .property entry.2.1 entry.2.2)
  | .propertyValues =>
      sheet.declarationEntries.map fun entry =>
        (.value entry.1, .value entry.2.1 entry.2.2)
  | .pseudoStates =>
      (nested sheet.selectorEntries fun selector =>
        (selector.pseudoStates.map (.pseudoState selector)).zipIdx).map fun entry =>
          (entry.1, .pseudoState entry.2.1.1 entry.2.1.2.1 entry.2.1.2.2 entry.2.2)
  | .subControls =>
      (foundAmong sheet.selectorEntries fun selector =>
        selector.subControl?.map (.subControl selector)).map fun entry =>
          (entry.1, .subControl entry.2.1 entry.2.2.1 entry.2.2.2)

section Entries

variable (sheet : Sheet)

/-- The entries of declarations list the declarations at their places. -/
theorem lists_declarationEntries :
    Lists (fun index => sheet.declarationAt? index.1 index.2) sheet.declarationEntries :=
  (Lists.zipIdx sheet.rules).nest fun rule => .zipIdx rule.declarations

/-- The entries of selectors list the selectors at their places. -/
theorem lists_selectorEntries :
    Lists (fun index => sheet.selectorAt? index.1 index.2.1 index.2.2) sheet.selectorEntries :=
  (Lists.zipIdx sheet.rules).nest fun rule =>
    (Lists.zipIdx rule.chains).nest fun chain => .zipIdx chain

/-- The subjects that a check looks at are listed with those sites that it looks at. -/
theorem lists_subjectEntries (check : Check) :
    Lists (fun site => if site.check = check then sheet.subjectAt? site else none)
      (sheet.subjectEntries check) := by
  cases check with
  | knownProperties =>
      refine sheet.lists_declarationEntries.rename Subject.property
        (fun index => Site.property index.1 index.2) ?_ (fun _ => rfl) ?_
      · rintro ⟨_, _⟩ ⟨_, _⟩ ⟨⟩
        rfl
      · rintro (⟨rule, declaration⟩ | _ | _ | _) other
        · exact absurd rfl (other (rule, declaration))
        all_goals rfl
  | propertyValues =>
      refine sheet.lists_declarationEntries.rename Subject.value
        (fun index => Site.value index.1 index.2) ?_ (fun _ => rfl) ?_
      · rintro ⟨_, _⟩ ⟨_, _⟩ ⟨⟩
        rfl
      · rintro (_ | ⟨rule, declaration⟩ | _ | _) other
        · rfl
        · exact absurd rfl (other (rule, declaration))
        all_goals rfl
  | pseudoStates =>
      have listed := sheet.lists_selectorEntries.nest fun selector =>
        Lists.zipIdx (selector.pseudoStates.map (Subject.pseudoState selector))
      refine listed.rename id
        (fun index => Site.pseudoState index.1.1 index.1.2.1 index.1.2.2 index.2) ?_ ?_ ?_
      · rintro ⟨⟨_, _, _⟩, _⟩ ⟨⟨_, _, _⟩, _⟩ ⟨⟩
        rfl
      · intro index
        simp [Site.check, subjectAt?]
      · rintro (_ | _ | ⟨rule, chain, selector, state⟩ | _) other
        · rfl
        · rfl
        · exact absurd rfl (other ((rule, chain, selector), state))
        · rfl
  | subControls =>
      have listed := sheet.lists_selectorEntries.found fun selector =>
        selector.subControl?.map (Subject.subControl selector)
      refine listed.rename id (fun index => Site.subControl index.1 index.2.1 index.2.2) ?_ ?_ ?_
      · rintro ⟨_, _, _⟩ ⟨_, _, _⟩ ⟨⟩
        rfl
      · intro index
        simp [Site.check, subjectAt?]
      · rintro (_ | _ | _ | ⟨rule, chain, selector⟩) other
        · rfl
        · rfl
        · rfl
        · exact absurd rfl (other (rule, chain, selector))

/-- The entries of declarations hold the declarations of the sheet. -/
theorem map_fst_declarationEntries :
    sheet.declarationEntries.map Prod.fst = sheet.declarations := by
  simp only [declarationEntries, map_fst_nested, List.zipIdx_map_fst, declarations]

/-- The entries of selectors hold the selectors of the sheet. -/
theorem map_fst_selectorEntries :
    sheet.selectorEntries.map Prod.fst = sheet.selectors := by
  simp only [selectorEntries, map_fst_nested, List.zipIdx_map_fst, selectors, List.flatMap_id']

/-- The entries for a check are those of the subjects that it looks at. -/
theorem map_fst_subjectEntries (check : Check) :
    (sheet.subjectEntries check).map Prod.fst =
      sheet.rules.flatMap fun rule => rule.subjects check := by
  cases check with
  | knownProperties =>
      simp only [subjectEntries, Rule.subjects_knownProperties, ← List.map_flatMap]
      rw [← declarations, ← map_fst_declarationEntries, List.map_map, List.map_map]
      rfl
  | propertyValues =>
      simp only [subjectEntries, Rule.subjects_propertyValues, ← List.map_flatMap]
      rw [← declarations, ← map_fst_declarationEntries, List.map_map, List.map_map]
      rfl
  | pseudoStates =>
      simp only [subjectEntries, Rule.subjects_pseudoStates, ← List.flatMap_assoc]
      rw [← selectors, ← map_fst_selectorEntries, List.map_map]
      refine (map_fst_nested _ _).trans ?_
      simp only [List.zipIdx_map_fst]
  | subControls =>
      simp only [subjectEntries, Rule.subjects_subControls, ← List.flatMap_assoc]
      rw [← selectors, ← map_fst_selectorEntries, List.map_map]
      refine (map_fst_foundAmong _ _).trans ?_
      simp only [List.filterMap_eq_flatMap_toList, Option.toList_map]

/-- The subjects of all checks with their sites. -/
def entries : List (Subject × Site) :=
  Check.all.flatMap sheet.subjectEntries

/-- The entries of a check are the subjects at the sites of that check. -/
theorem mem_subjectEntries
    {check : Check}
    {entry : Subject × Site} :
    entry ∈ sheet.subjectEntries check ↔
      entry.2.check = check ∧ sheet.subjectAt? entry.2 = some entry.1 := by
  obtain ⟨subject, site⟩ := entry
  rw [(sheet.lists_subjectEntries check).entry]
  simp

/-- The entries of a sheet list the subjects at all sites. -/
theorem lists_entries :
    Lists sheet.subjectAt? sheet.entries := by
  constructor
  · rw [entries, List.map_flatMap]
    refine List.pairwise_flatMap.mpr ⟨fun check _ => (sheet.lists_subjectEntries check).once, ?_⟩
    have distinct : Check.all.Pairwise (· ≠ ·) := by decide
    refine distinct.imp ?_
    intro check other differ site isSite otherSite isOther same
    obtain ⟨entry, isEntry, rfl⟩ := List.mem_map.mp isSite
    obtain ⟨otherEntry, isOtherEntry, rfl⟩ := List.mem_map.mp isOther
    refine differ ?_
    rw [← (sheet.mem_subjectEntries.mp isEntry).1, same,
      (sheet.mem_subjectEntries.mp isOtherEntry).1]
  · intro subject site
    simp only [entries, List.mem_flatMap, mem_subjectEntries]
    constructor
    · rintro ⟨_, _, _, isSubject⟩
      exact isSubject
    · intro isSubject
      exact ⟨site.check, site.check.mem_all, rfl, isSubject⟩

/-- All checks together look at all subjects, one check after another. -/
theorem map_fst_entries :
    sheet.entries.map Prod.fst =
      Check.all.flatMap fun check => sheet.rules.flatMap fun rule => rule.subjects check := by
  simp only [entries, List.map_flatMap, map_fst_subjectEntries]

/-- Validating a sheet finds what there is to find of each of its subjects. -/
theorem validate_eq :
    sheet.validate [] = (sheet.entries.map Prod.fst).filterMap Subject.finding? := by
  rw [map_fst_entries, List.filterMap_flatMap, validate, List.append_nil]
  exact List.flatMap_congr fun check _ => check.run_eq sheet

/-- The check that looks at a site looks at the subject there. -/
theorem check_of_subjectAt?
    {site : Site}
    {subject : Subject}
    (isSubject : sheet.subjectAt? site = some subject) :
    subject.check = site.check := by
  cases site with
  | property =>
      obtain ⟨_, _, rfl⟩ := Option.map_eq_some_iff.mp isSubject
      rfl
  | value =>
      obtain ⟨_, _, rfl⟩ := Option.map_eq_some_iff.mp isSubject
      rfl
  | pseudoState =>
      obtain ⟨_, _, isState⟩ := Option.bind_eq_some_iff.mp isSubject
      obtain ⟨_, _, rfl⟩ := Option.map_eq_some_iff.mp isState
      rfl
  | subControl =>
      obtain ⟨_, _, isControl⟩ := Option.bind_eq_some_iff.mp isSubject
      obtain ⟨_, _, rfl⟩ := Option.map_eq_some_iff.mp isControl
      rfl

end Entries

end Sheet

/-- Findings with sites, which are what the checks blame a sheet for. -/
structure IsVerdict (sheet : Sheet) (blamed : List (Diagnostic × Site)) : Prop where
  findings : blamed.map Prod.fst = sheet.validate []
  once : (blamed.map Prod.snd).Nodup
  faulty :
    ∀ site,
      site ∈ blamed.map Prod.snd ↔
        ∃ subject, sheet.subjectAt? site = some subject ∧ subject.IsFaulty
  described :
    ∀ diagnostic site, (diagnostic, site) ∈ blamed →
      ∃ subject, sheet.subjectAt? site = some subject ∧ subject.IsDescribedBy diagnostic
  ordered :
    blamed.Pairwise fun first second =>
      first.2.check = second.2.check → first.1.Precedes second.1.toExcerpt
  apart :
    blamed.Pairwise fun first second =>
      first.1.Precedes second.1.toExcerpt ∨ second.1.Precedes first.1.toExcerpt
  /-- A declaration is not blamed for its property and for its value. -/
  single :
    ∀ rule declaration, .property rule declaration ∈ blamed.map Prod.snd →
      .value rule declaration ∉ blamed.map Prod.snd

section Read

variable {source : String} {sheet : Sheet}

/-- The subjects of a sheet are arranged in the tokens of its source. -/
theorem arranged_of_ofSource
    (isRead : Sheet.ofSource source = .ok sheet) :
    Arranged (Joint.first.tokens (placedPieces source.toList)) fun check =>
      sheet.rules.flatMap fun rule => rule.subjects check :=
  (ofSource_eq_ok.mp isRead).2.arranged

/-- The subjects of a sheet that is read have tokens. -/
theorem tokens_of_subjectAt?
    {site : Site}
    {subject : Subject}
    (isRead : Sheet.ofSource source = .ok sheet)
    (isSubject : sheet.subjectAt? site = some subject) :
    subject.tokens ≠ [] := by
  have isEntry : (subject, site) ∈ sheet.subjectEntries site.check :=
    sheet.mem_subjectEntries.mpr ⟨rfl, isSubject⟩
  have member : subject ∈ (sheet.subjectEntries site.check).map Prod.fst :=
    List.mem_map.mpr ⟨_, isEntry, rfl⟩
  rw [Sheet.map_fst_subjectEntries] at member
  exact ((arranged_of_ofSource isRead).of_mem member).1

/-- Something is found at a site just when the subject there is at fault. -/
theorem mem_sites_iff
    (isRead : Sheet.ofSource source = .ok sheet)
    (site : Site) :
    site ∈ (foundAmong sheet.entries Subject.finding?).map Prod.snd ↔
      ∃ subject, sheet.subjectAt? site = some subject ∧ subject.IsFaulty := by
  have listed := sheet.lists_entries.found Subject.finding?
  constructor
  · intro member
    obtain ⟨⟨diagnostic, _⟩, isEntry, rfl⟩ := List.mem_map.mp member
    obtain ⟨subject, isSubject, isFound⟩ :=
      Option.bind_eq_some_iff.mp ((listed.entry _ _).mp isEntry)
    refine ⟨subject, isSubject, ?_⟩
    rw [← Subject.isSome_finding? (tokens_of_subjectAt? isRead isSubject), isFound]
    rfl
  · rintro ⟨subject, isSubject, isFaulty⟩
    rw [← Subject.isSome_finding? (tokens_of_subjectAt? isRead isSubject)] at isFaulty
    obtain ⟨diagnostic, isFound⟩ := Option.isSome_iff_exists.mp isFaulty
    refine List.mem_map.mpr ⟨(diagnostic, site), (listed.entry _ _).mpr ?_, rfl⟩
    rw [isSubject]
    exact isFound

/-- The findings about the subjects of a sheet are in the order of the subjects. -/
theorem pairwise_foundAmong
    (isRead : Sheet.ofSource source = .ok sheet) :
    (foundAmong sheet.entries Subject.finding?).Pairwise fun first second =>
      (first.2.check = second.2.check → first.1.Precedes second.1.toExcerpt) ∧
        (first.1.Precedes second.1.toExcerpt ∨ second.1.Precedes first.1.toExcerpt) := by
  -- The tokens of the text are in order, so are the subjects, and so is what is found about them.
  have pairwise := (arranged_of_ofSource isRead).pairwise (successive_tokens source).1
  rw [← sheet.map_fst_entries, List.pairwise_map] at pairwise
  refine List.pairwise_filterMap.mpr (pairwise.imp_of_mem ?_)
  rintro ⟨subject, site⟩ ⟨other, otherSite⟩ isEntry isOther ⟨inOrder, either⟩ found isFound
    otherFound isOtherFound
  obtain ⟨diagnostic, isFinding, rfl⟩ := Option.map_eq_some_iff.mp isFound
  obtain ⟨otherDiagnostic, isOtherFinding, rfl⟩ := Option.map_eq_some_iff.mp isOtherFound
  have isSubject := (sheet.lists_entries.entry _ _).mp isEntry
  have isOtherSubject := (sheet.lists_entries.entry _ _).mp isOther
  have describes :=
    Subject.isDescribedBy_of_finding? (tokens_of_subjectAt? isRead isSubject) isFinding
  have describesOther :=
    Subject.isDescribedBy_of_finding? (tokens_of_subjectAt? isRead isOtherSubject) isOtherFinding
  constructor
  · intro sameCheck
    rw [← sheet.check_of_subjectAt? isSubject, ← sheet.check_of_subjectAt? isOtherSubject]
      at sameCheck
    exact (inOrder sameCheck).findings describes describesOther
  · exact either.imp (fun precedes => precedes.findings describes describesOther)
      fun precedes => precedes.findings describesOther describes

end Read

/--
The checks of a text that is a style sheet blame each site at fault, each once,
and nothing else, and every finding describes what is at its site. The findings
of a check are in the order of the text, and no two findings overlap.
-/
theorem exists_isVerdict
    {source : String}
    {sheet : Sheet}
    (isRead : Sheet.ofSource source = .ok sheet) :
    ∃ blamed, IsVerdict sheet blamed := by
  have listed := sheet.lists_entries.found Subject.finding?
  have pairwise := pairwise_foundAmong isRead
  have isFaulty := mem_sites_iff isRead
  refine ⟨foundAmong sheet.entries Subject.finding?, ?_, listed.once, isFaulty, ?_, ?_, ?_, ?_⟩
  · rw [map_fst_foundAmong, sheet.validate_eq]
  · intro diagnostic site member
    obtain ⟨subject, isSubject, isFound⟩ :=
      Option.bind_eq_some_iff.mp ((listed.entry diagnostic site).mp member)
    exact ⟨subject, isSubject,
      Subject.isDescribedBy_of_finding? (tokens_of_subjectAt? isRead isSubject) isFound⟩
  · exact pairwise.imp And.left
  · exact pairwise.imp And.right
  · intro rule declaration isProperty isValue
    obtain ⟨_, isSubject, noShape⟩ := (isFaulty _).mp isProperty
    obtain ⟨_, isOther, someShape⟩ := (isFaulty _).mp isValue
    obtain ⟨found, isFound, rfl⟩ := Option.map_eq_some_iff.mp isSubject
    obtain ⟨other, isOtherFound, rfl⟩ := Option.map_eq_some_iff.mp isOther
    obtain rfl : found = other := Option.some.inj (isFound.symm.trans isOtherFound)
    obtain ⟨shape, isShape, _⟩ := someShape
    rw [Subject.IsFaulty, isShape] at noShape
    contradiction

/-- Something is at fault for each check in the second chain and the declarations of a rule. -/
theorem exists_isVerdict_of_each_check :
    let source := "a,b QMenu:!x::tab\x7bc:d;margin:1px,2px\x7d"
    let sheet : Sheet :=
      ⟨[⟨[[⟨some "a", none, [], [], none, [], none, 0, 1⟩],
          [⟨some "b", none, [], [], none, [], some .descendant, 2, 1⟩,
            ⟨some "QMenu", none, [], [⟨"x", true, ⟨⟨"x", 11, 1, 1, 12⟩, .identifier⟩⟩],
              some ⟨⟨"tab", 14, 3, 1, 15⟩, .identifier⟩, [], none, 4, 13⟩]],
        [⟨"c", [⟨⟨"d", 20, 1, 1, 21⟩, .identifier⟩], 18, 3,
            some ⟨⟨"c", 18, 1, 1, 19⟩, .identifier⟩, false⟩,
          ⟨"margin", [⟨⟨"1px", 29, 3, 1, 30⟩, .number⟩, ⟨⟨",", 32, 1, 1, 33⟩, .comma⟩,
              ⟨⟨"2px", 33, 3, 1, 34⟩, .number⟩], 22, 14,
            some ⟨⟨"margin", 22, 6, 1, 23⟩, .identifier⟩, false⟩], 0, 37⟩]⟩
    Sheet.ofSource source = .ok sheet ∧
      ∃ blamed,
        IsVerdict sheet blamed ∧
          blamed.length = 4 ∧
          .pseudoState 0 1 1 0 ∈ blamed.map Prod.snd := by
  intro source sheet
  have isRead : Sheet.ofSource source = .ok sheet := by
    decide +kernel
  obtain ⟨blamed, verdict⟩ := exists_isVerdict isRead
  refine ⟨isRead, blamed, verdict, ?_, ?_⟩
  · rw [← List.length_map Prod.fst, verdict.findings]
    decide +kernel
  · refine (verdict.faulty _).mpr ⟨_, rfl, ?_⟩
    rw [Subject.IsFaulty]
    decide +kernel

end QtSheet

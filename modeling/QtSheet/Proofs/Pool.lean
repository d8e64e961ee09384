import Mathlib.Data.List.Basic
import Mathlib.Logic.Relation
import QtSheet.File.Lint

namespace QtSheet

/-!
# Linting files side by side

The files of a run may be linted by several workers at a time. The workers take
the files in order, finish them in any order, and what comes of the files is put
together in the order of the paths. However the workers are scheduled, this is
what linting the files one by one gives, and each file is linted by itself
(`runsApart`). Only a path with a null character in it breaks all of this: it
ends the run, and nothing is left of the other files.
-/

/-- The text of the file that a path leads to, if there is such a file and its bytes are text. -/
def textAt? (read : FileReader) (path : String) : Option String :=
  match read (Path.ofText path) with
  | .error _ => none
  | .ok bytes => (decodeSource bytes).toOption

/-- An outcome says of a path, at the beginning of an empty text, that there is no text at it. -/
structure Outcome.IsUnreadable (outcome : Outcome) (path : String) : Prop where
  file : outcome.file = path
  success : outcome.success = false
  source : outcome.source = ""
  diagnostics :
    ∃ diagnostic,
      outcome.diagnostics = [diagnostic] ∧
        diagnostic.severity = .unreadable ∧
        diagnostic.start = 0 ∧
        diagnostic.length = 0

section File

variable {read : FileReader} {mode : Mode} {path : String}

/-- A path with a null character ends the run. -/
theorem lintPath_of_null
    (isNull : '\x00' ∈ path.toList) :
    lintPath read mode path = .error .nullInPath := by
  simp [lintPath, readSource, isNull, ReadFault.endsRun]

/-- At any other path there is a text, or a fault that does not end the run. -/
theorem readSource_of_no_null
    (read : FileReader)
    (noNull : '\x00' ∉ path.toList) :
    (∃ text, readSource read path = .ok text ∧ textAt? read path = some text) ∨
      ∃ fault,
        readSource read path = .error fault ∧
          fault.endsRun = false ∧
          textAt? read path = none := by
  cases isRead : read (Path.ofText path) with
  | error fault =>
      refine .inr ⟨.noFile fault (Path.ofText path), ?_, rfl, ?_⟩
      · simp [readSource, noNull, isRead]
      · simp [textAt?, isRead]
  | ok bytes =>
      cases isDecoded : decodeSource bytes with
      | error fault =>
          refine .inr ⟨.encoding fault, ?_, rfl, ?_⟩
          · simp [readSource, noNull, isRead, isDecoded]
          · simp [textAt?, isRead, isDecoded, Except.toOption]
      | ok text =>
          refine .inl ⟨text, ?_, ?_⟩
          · simp [readSource, noNull, isRead, isDecoded]
          · simp [textAt?, isRead, isDecoded, Except.toOption]

/-- Any path without a null character has an outcome, which is that of its text if it has one. -/
theorem lintPath_of_no_null
    (read : FileReader)
    (mode : Mode)
    (noNull : '\x00' ∉ path.toList) :
    ∃ linted,
      lintPath read mode path = .ok linted ∧
        (∀ text, textAt? read path = some text → linted.outcome = lint path text mode) ∧
        (textAt? read path = none → linted.outcome.IsUnreadable path) := by
  rcases readSource_of_no_null read noNull with
    ⟨text, isText, atPath⟩ | ⟨fault, isFault, goesOn, atPath⟩
  · refine ⟨⟨lint path text mode, lintLog path text mode⟩, ?_, ?_, ?_⟩
    · simp only [lintPath, isText]
    · intro other isOther
      obtain rfl : text = other := Option.some.inj (atPath.symm.trans isOther)
      rfl
    · intro noText
      rw [atPath] at noText
      contradiction
  · refine ⟨unreadable path fault, ?_, ?_, ?_⟩
    · simp [lintPath, isFault, goesOn]
    · intro other isOther
      rw [atPath] at isOther
      contradiction
    · exact fun _ => ⟨rfl, rfl, rfl, _, rfl, rfl, rfl, rfl⟩

/-- What comes of a path depends on what is read there only. -/
theorem lintPath_congr
    {other : FileReader}
    (same : read (Path.ofText path) = other (Path.ofText path)) :
    lintPath read mode path = lintPath other mode path := by
  simp only [lintPath, readSource, same]

/-- Nothing but a null character ends the run. -/
theorem lintPath_eq_error
    {fault : ReadFault}
    (isError : lintPath read mode path = .error fault) :
    fault = .nullInPath := by
  by_cases isNull : '\x00' ∈ path.toList
  · rw [lintPath_of_null isNull] at isError
    exact (Except.error.inj isError).symm
  · obtain ⟨linted, isLinted, _⟩ := lintPath_of_no_null read mode isNull
    rw [isLinted] at isError
    contradiction

end File

/-- The results of a run put together: all files, or the first fault that ends the run. -/
def collect : List (Except ReadFault LintedFile) → Except ReadFault (List LintedFile)
  | [] => .ok []
  | .error fault :: _ => .error fault
  | .ok linted :: results => (collect results).map (linted :: ·)

/-- Linting files one by one puts together what comes of each. -/
theorem lintPaths_eq_collect (read : FileReader) (mode : Mode) (paths : List String) :
    lintPaths read mode paths = collect (paths.map (lintPath read mode)) := by
  induction paths with
  | nil =>
      rfl
  | cons path paths inductionHypothesis =>
      rw [lintPaths, inductionHypothesis, List.map_cons]
      cases lintPath read mode path with
      | error fault =>
          rfl
      | ok linted =>
          rw [collect]
          cases collect (paths.map (lintPath read mode)) <;> rfl

/-- All files are put together when there is no fault. -/
theorem collect_map_ok (files : List LintedFile) :
    collect (files.map .ok) = .ok files := by
  induction files with
  | nil =>
      rfl
  | cons file files inductionHypothesis =>
      rw [List.map_cons, collect, inductionHypothesis]
      rfl

/-- Whatever files are put together, there is no fault among them. -/
theorem eq_map_ok_of_collect
    {results : List (Except ReadFault LintedFile)}
    {files : List LintedFile}
    (areFiles : collect results = .ok files) :
    results = files.map .ok := by
  induction results generalizing files with
  | nil =>
      obtain rfl : [] = files := Except.ok.inj areFiles
      rfl
  | cons result results inductionHypothesis =>
      cases result with
      | error fault =>
          contradiction
      | ok linted =>
          rw [collect] at areFiles
          cases isRest : collect results with
          | error fault =>
              rw [isRest] at areFiles
              contradiction
          | ok others =>
              rw [isRest] at areFiles
              obtain rfl : linted :: others = files := Except.ok.inj areFiles
              rw [inductionHypothesis isRest, List.map_cons]

/-- If all faults are the same and there is one, it ends the run. -/
theorem collect_eq_error
    {results : List (Except ReadFault LintedFile)}
    {fault : ReadFault}
    (same : ∀ other, .error other ∈ results → other = fault)
    (member : .error fault ∈ results) :
    collect results = .error fault := by
  induction results with
  | nil =>
      contradiction
  | cons result results inductionHypothesis =>
      cases result with
      | error other =>
          rw [collect, same other List.mem_cons_self]
      | ok linted =>
          have later : .error fault ∈ results := by simpa using member
          have isRest :=
            inductionHypothesis (fun other isOther => same other (.tail _ isOther)) later
          rw [collect, isRest]
          rfl

section Paths

variable {read : FileReader} {mode : Mode} {paths : List String}

/-- The files of a run are what comes of each path. -/
theorem lintPaths_eq_ok
    {files : List LintedFile} :
    lintPaths read mode paths = .ok files ↔
      paths.map (lintPath read mode) = files.map .ok := by
  rw [lintPaths_eq_collect]
  constructor
  · exact eq_map_ok_of_collect
  · intro areFiles
    rw [areFiles, collect_map_ok]

/-- What comes of a path in a run is what comes of it by itself. -/
theorem getElem?_of_lintPaths
    {files : List LintedFile}
    {number : Nat}
    {path : String}
    (areFiles : lintPaths read mode paths = .ok files)
    (isPath : paths[number]? = some path) :
    files[number]?.map .ok = some (lintPath read mode path) := by
  rw [← List.getElem?_map, ← lintPaths_eq_ok.mp areFiles, List.getElem?_map, isPath]
  rfl

/-- Without null characters in the paths every run has files. -/
theorem exists_files_of_no_null
    (read : FileReader)
    (mode : Mode)
    (noNull : ∀ path ∈ paths, '\x00' ∉ path.toList) :
    ∃ files, lintPaths read mode paths = .ok files := by
  induction paths with
  | nil =>
      exact ⟨[], rfl⟩
  | cons path paths inductionHypothesis =>
      obtain ⟨here, later⟩ := List.forall_mem_cons.mp noNull
      obtain ⟨linted, isLinted, _⟩ := lintPath_of_no_null read mode here
      obtain ⟨files, areFiles⟩ := inductionHypothesis later
      refine ⟨linted :: files, lintPaths_eq_ok.mpr ?_⟩
      rw [List.map_cons, isLinted, lintPaths_eq_ok.mp areFiles, List.map_cons]

/-- A null character in any of the paths ends the run. -/
theorem lintPaths_of_null
    (someNull : ∃ path ∈ paths, '\x00' ∈ path.toList) :
    lintPaths read mode paths = .error .nullInPath := by
  obtain ⟨path, isPath, isNull⟩ := someNull
  rw [lintPaths_eq_collect]
  refine collect_eq_error ?_ ?_
  · intro fault member
    obtain ⟨other, _, isError⟩ := List.mem_map.mp member
    exact lintPath_eq_error isError
  · exact List.mem_map.mpr ⟨path, isPath, lintPath_of_null isNull⟩

end Paths

/-- Files that wait to be linted, those that are being linted, and what has come of the others. -/
structure Pool where
  waiting : List (String × Nat)
  running : List (String × Nat)
  finished : List (Nat × Except ReadFault LintedFile)

namespace Pool

/-- All files wait, each with its number. -/
def ofPaths (paths : List String) : Pool where
  waiting := paths.zipIdx
  running := []
  finished := []

/-- What some workers can do: take the next file, if one of them is free, or finish a file. -/
inductive Step (read : FileReader) (mode : Mode) (jobs : Nat) : Pool → Pool → Prop where
  | take
      {file : String × Nat}
      {waiting running : List (String × Nat)}
      {finished : List (Nat × Except ReadFault LintedFile)} :
      running.length < jobs →
      Step read mode jobs ⟨file :: waiting, running, finished⟩
        ⟨waiting, file :: running, finished⟩
  | finish
      {file : String × Nat}
      {waiting before behind : List (String × Nat)}
      {finished : List (Nat × Except ReadFault LintedFile)} :
      Step read mode jobs ⟨waiting, before ++ file :: behind, finished⟩
        ⟨waiting, before ++ behind, (file.2, lintPath read mode file.1) :: finished⟩

/-- No file is left to be linted. -/
def IsDone (pool : Pool) : Prop :=
  pool.waiting = [] ∧ pool.running = []

/-- What has come of some paths, in their order. -/
def answer (pool : Pool) (paths : List String) : Except ReadFault (List LintedFile) :=
  collect (paths.zipIdx.filterMap fun file => pool.finished.lookup file.2)

/--
Every file of some paths waits, is being linted or is finished, under its own
number, and what has come of it is what linting it by itself gives.
-/
structure Sound (read : FileReader) (mode : Mode) (paths : List String) (pool : Pool) : Prop where
  numbers :
    ∀ number < paths.length,
      number ∈ (pool.waiting ++ pool.running).map Prod.snd ∨ number ∈ pool.finished.map Prod.fst
  files : ∀ file ∈ pool.waiting ++ pool.running, paths[file.2]? = some file.1
  results :
    ∀ entry ∈ pool.finished, paths[entry.1]?.map (lintPath read mode) = some entry.2

section Run

variable {read : FileReader} {mode : Mode} {jobs : Nat} {paths : List String}

/-- Before any worker has taken a file the pool is sound. -/
theorem sound_ofPaths :
    (ofPaths paths).Sound read mode paths := by
  refine ⟨?_, ?_, by simp [ofPaths]⟩
  · intro number isNumber
    simp [ofPaths, isNumber]
  · intro file member
    exact List.mk_mem_zipIdx_iff_getElem?.mp (by simpa [ofPaths] using member)

/-- No step of the workers loses a file or gives it another result. -/
theorem Sound.step
    {pool next : Pool}
    (sound : pool.Sound read mode paths)
    (step : Step read mode jobs pool next) :
    next.Sound read mode paths := by
  obtain ⟨numbers, files, results⟩ := sound
  cases step with
  | @take file waiting running finished _ =>
      have same (other : String × Nat) :
          other ∈ waiting ++ file :: running ↔ other ∈ file :: waiting ++ running :=
        List.perm_middle.mem_iff
      refine ⟨?_, ?_, results⟩
      · intro number isNumber
        exact (numbers number isNumber).imp_left fun isLeft =>
          List.map_subset Prod.snd (fun other => (same other).mpr) isLeft
      · intro other member
        exact files other ((same other).mp member)
  | @finish file waiting before behind finished =>
      have same (other : String × Nat) :
          other ∈ waiting ++ (before ++ file :: behind) ↔
            other = file ∨ other ∈ waiting ++ (before ++ behind) := by
        rw [← List.append_assoc, List.perm_middle.mem_iff, List.mem_cons, List.append_assoc]
      refine ⟨?_, ?_, ?_⟩
      · intro number isNumber
        rcases numbers number isNumber with isLeft | isFinished
        · obtain ⟨other, isOther, rfl⟩ := List.mem_map.mp isLeft
          rcases (same other).mp isOther with rfl | stillLeft
          · exact .inr List.mem_cons_self
          · exact .inl (List.mem_map_of_mem stillLeft)
        · exact .inr (List.mem_cons_of_mem _ isFinished)
      · intro other member
        exact files other ((same other).mpr (.inr member))
      · intro entry member
        rcases List.mem_cons.mp member with rfl | earlier
        · rw [files file ((same file).mpr (.inl rfl))]
          rfl
        · exact results entry earlier

/-- What the workers have done is sound at every time. -/
theorem Sound.run
    {pool next : Pool}
    (sound : pool.Sound read mode paths)
    (steps : Relation.ReflTransGen (Step read mode jobs) pool next) :
    next.Sound read mode paths := by
  induction steps with
  | refl =>
      exact sound
  | tail _ step inductionHypothesis =>
      exact inductionHypothesis.step step

/-- When no file is left, there is a result for each of them, under its number. -/
theorem Sound.lookup_eq
    {pool : Pool}
    {file : String × Nat}
    (sound : pool.Sound read mode paths)
    (isDone : pool.IsDone)
    (member : file ∈ paths.zipIdx) :
    pool.finished.lookup file.2 = some (lintPath read mode file.1) := by
  have isFile : paths[file.2]? = some file.1 := List.mk_mem_zipIdx_iff_getElem?.mp member
  obtain ⟨isNumber, _⟩ := List.getElem?_eq_some_iff.mp isFile
  have isFinished : file.2 ∈ pool.finished.map Prod.fst := by
    simpa [isDone.1, isDone.2] using sound.numbers file.2 isNumber
  cases isLookup : pool.finished.lookup file.2 with
  | none =>
      obtain ⟨entry, isEntry, sameNumber⟩ := List.mem_map.mp isFinished
      have differs := List.lookup_eq_none_iff.mp isLookup entry isEntry
      simp [sameNumber] at differs
  | some result =>
      -- Whichever entry is found for the number, it has the result of the file.
      obtain ⟨before, behind, shape, _⟩ := List.lookup_eq_some_iff.mp isLookup
      have fromFile := sound.results (file.2, result) (by rw [shape]; simp)
      rw [isFile] at fromFile
      exact fromFile.symm

/-- When no file is left, the results are those of linting the files one by one. -/
theorem Sound.answer_eq
    {pool : Pool}
    (sound : pool.Sound read mode paths)
    (isDone : pool.IsDone) :
    pool.answer paths = lintPaths read mode paths := by
  have areResults :
      (paths.zipIdx.filterMap fun file => pool.finished.lookup file.2) =
        paths.zipIdx.map fun file => lintPath read mode file.1 :=
    List.filterMap_eq_map_iff_forall_eq_some.mpr fun _ => sound.lookup_eq isDone
  have areFiles := congrArg (List.map (lintPath read mode)) (List.zipIdx_map_fst 0 paths)
  rw [List.map_map] at areFiles
  rw [answer, lintPaths_eq_collect, areResults, ← areFiles]
  rfl

/-- While a file is left, the workers can go on. -/
theorem exists_step
    {pool : Pool}
    (someWorker : 1 ≤ jobs)
    (notDone : ¬ pool.IsDone) :
    ∃ next, Step read mode jobs pool next := by
  obtain ⟨waiting, running, finished⟩ := pool
  cases running with
  | cons file running =>
      have step :
          Step read mode jobs ⟨waiting, [] ++ file :: running, finished⟩
            ⟨waiting, [] ++ running, (file.2, lintPath read mode file.1) :: finished⟩ :=
        .finish
      exact ⟨_, step⟩
  | nil =>
      cases waiting with
      | cons file waiting =>
          exact ⟨_, .take someWorker⟩
      | nil =>
          exact absurd ⟨rfl, rfl⟩ notDone

/-- How much is left to do: each file is to be taken and to be finished. -/
def remaining (pool : Pool) : Nat :=
  2 * pool.waiting.length + pool.running.length

/-- Every step leaves less to do. -/
theorem Step.remaining_lt
    {pool next : Pool}
    (step : Step read mode jobs pool next) :
    next.remaining < pool.remaining := by
  cases step with
  | take _ =>
      simp only [remaining, List.length_cons]
      omega
  | finish =>
      simp only [remaining, List.length_append, List.length_cons]
      omega

/-- The workers cannot go on forever. -/
theorem wellFounded_step :
    WellFounded fun next pool => Step read mode jobs pool next :=
  Subrelation.wf Step.remaining_lt (measure remaining).wf

end Run

end Pool

/-- Some workers lint the files that paths lead to, each by itself. -/
structure RunsApart
    (read : FileReader)
    (mode : Mode)
    (jobs : Nat)
    (paths : List String) :
    Prop where
  /-- The workers do not go on forever. -/
  ends : Acc (fun next pool => Pool.Step read mode jobs pool next) (.ofPaths paths)
  /-- They do not stop before all is done. -/
  goesOn :
    ∀ pool, Relation.ReflTransGen (Pool.Step read mode jobs) (.ofPaths paths) pool →
      ¬ pool.IsDone → ∃ next, Pool.Step read mode jobs pool next
  /-- Then they have done what one worker does. -/
  answers :
    ∀ pool, Relation.ReflTransGen (Pool.Step read mode jobs) (.ofPaths paths) pool →
      pool.IsDone → pool.answer paths = lintPaths read mode paths
  complete :
    (∀ path ∈ paths, '\x00' ∉ path.toList) →
      ∃ files,
        lintPaths read mode paths = .ok files ∧
          files.length = paths.length ∧
          ∀ (number : Nat) (path : String), paths[number]? = some path →
            ∃ linted : LintedFile,
              files[number]? = some linted ∧
                (∀ text, textAt? read path = some text → linted.outcome = lint path text mode) ∧
                (textAt? read path = none → linted.outcome.IsUnreadable path)
  /-- The other paths, their order and what they lead to do not matter. -/
  independent :
    ∀ (other : FileReader) (others : List String) (files otherFiles : List LintedFile)
        (number otherNumber : Nat) (path : String),
      lintPaths read mode paths = .ok files →
      lintPaths other mode others = .ok otherFiles →
      paths[number]? = some path →
      others[otherNumber]? = some path →
      read (Path.ofText path) = other (Path.ofText path) →
      files[number]? = otherFiles[otherNumber]?
  /-- A path that cannot be one takes the others with it. -/
  broken :
    (∃ path ∈ paths, '\x00' ∈ path.toList) → lintPaths read mode paths = .error .nullInPath

/--
With at least one worker, every run over paths without a null character ends with
one result for each path, in order. It is that of the text at the path, or says
that there is none, and depends neither on the other paths nor on the workers. A
null character in any of the paths ends the run without results.
-/
theorem runsApart
    {jobs : Nat}
    (someWorker : 1 ≤ jobs)
    (read : FileReader)
    (mode : Mode)
    (paths : List String) :
    RunsApart read mode jobs paths where
  ends := Pool.wellFounded_step.apply _
  goesOn _ _ notDone := Pool.exists_step someWorker notDone
  answers _ steps isDone := (Pool.sound_ofPaths.run steps).answer_eq isDone
  complete noNull := by
    obtain ⟨files, areFiles⟩ := exists_files_of_no_null read mode noNull
    refine ⟨files, areFiles, ?_, ?_⟩
    · have sameLength := congrArg List.length (lintPaths_eq_ok.mp areFiles)
      rw [List.length_map, List.length_map] at sameLength
      exact sameLength.symm
    · intro number path isPath
      have isFile := getElem?_of_lintPaths areFiles isPath
      obtain ⟨linted, isLinted, ofText, ofNone⟩ :=
        lintPath_of_no_null read mode (noNull path (List.mem_of_getElem? isPath))
      rw [isLinted] at isFile
      obtain ⟨found, isFound, same⟩ := Option.map_eq_some_iff.mp isFile
      obtain rfl := Except.ok.inj same
      exact ⟨found, isFound, ofText, ofNone⟩
  independent other others files otherFiles number otherNumber path areFiles areOthers isPath
      isOther same := by
    have isFile := getElem?_of_lintPaths areFiles isPath
    have isOtherFile := getElem?_of_lintPaths areOthers isOther
    rw [lintPath_congr same, ← isOtherFile] at isFile
    exact Option.map_injective (fun _ _ => Except.ok.inj) isFile
  broken := lintPaths_of_null

/-- A folder with one style sheet. -/
def oneSheet : FileTree :=
  FileTree.empty.add ["a.qss"] (.file [97, 123, 125])

/-- A file that is not there does not keep two workers from the one that is. -/
theorem runsApart_missing_file :
    1 ≤ 2 ∧
      RunsApart oneSheet.read .full 2 ["b.qss", "a.qss"] ∧
      ∃ files,
        lintPaths oneSheet.read .full ["b.qss", "a.qss"] = .ok files ∧ files.length = 2 := by
  have apart := runsApart (by decide : 1 ≤ 2) oneSheet.read .full ["b.qss", "a.qss"]
  obtain ⟨files, areFiles, isLength, _⟩ := apart.complete (by decide)
  exact ⟨by decide, apart, files, areFiles, isLength⟩

/-- Not every run has results: a path that cannot be one takes a style sheet with it. -/
theorem not_forall_runs_complete :
    ¬ ∀ (read : FileReader) (mode : Mode) (paths : List String),
      ∃ files, lintPaths read mode paths = .ok files ∧ files.length = paths.length := by
  intro complete
  obtain ⟨files, areFiles, _⟩ := complete oneSheet.read .full ["a.qss", "\x00"]
  have isBroken : lintPaths oneSheet.read .full ["a.qss", "\x00"] = .error .nullInPath := by
    decide +kernel
  rw [isBroken] at areFiles
  contradiction

end QtSheet

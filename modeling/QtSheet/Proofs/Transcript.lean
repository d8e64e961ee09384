import QtSheet.CommandLine
import QtSheet.Proofs.Pool
import QtSheet.Proofs.Stage

namespace QtSheet

open Text

/-!
# What a run tells of its files

A run over files writes a block about each file that failed, in the order of the
command line, and nothing about the others. So what is written and the exit
status say the same. The options change nothing of this but the text around
findings, and neither do the workers, who only set the order of the warnings
about files that cannot be read (`run_tells`).
-/

namespace Outcome

/-- The line that says that a text failed, as it is written. -/
def writtenHeading (outcome : Outcome) : String :=
  withoutEscapes ("Invalid stylesheet for " ++ outcome.file)

/-- The line about a finding, as it is written. -/
def writtenFinding (outcome : Outcome) (diagnostic : Diagnostic) : String :=
  withoutEscapes (diagnostic.reportLine outcome.file)

/-- The text around a finding, as it is written. -/
def writtenContext (outcome : Outcome) (diagnostic : Diagnostic) : List String :=
  (diagnostic.contextLines outcome.source ReportStyle.standard.previewLength).map withoutEscapes

/-- What is written about a text that failed. -/
def block (verbose : Bool) (outcome : Outcome) : List String :=
  outcome.writtenHeading ::
    outcome.diagnostics.flatMap fun diagnostic =>
      outcome.writtenFinding diagnostic ::
        (if verbose then outcome.writtenContext diagnostic else [])

/-- The outcomes of the texts that failed. -/
def failures (outcomes : List Outcome) : List Outcome :=
  outcomes.filter fun outcome => !outcome.success

/-- Nothing is found about a text that passes. -/
def IsSilent (outcome : Outcome) : Prop :=
  outcome.success = true → outcome.diagnostics = []

/-- The text around findings adds seven lines after the line of each. -/
theorem exists_contexts (outcome : Outcome) :
    ∃ (lines : List String) (contexts : List (List String)),
      lines.length = outcome.diagnostics.length ∧
        contexts.length = outcome.diagnostics.length ∧
        (∀ context ∈ contexts, context.length = 7) ∧
        outcome.block false = outcome.writtenHeading :: lines ∧
        outcome.block true =
          outcome.writtenHeading :: (List.zipWith List.cons lines contexts).flatten := by
  refine ⟨outcome.diagnostics.map outcome.writtenFinding,
    outcome.diagnostics.map outcome.writtenContext, by simp, by simp, ?_, ?_, ?_⟩
  · intro context isContext
    obtain ⟨diagnostic, _, rfl⟩ := List.mem_map.mp isContext
    rfl
  · rw [block, List.map_eq_flatMap]
    rfl
  · rw [block, List.zipWith_map, List.zipWith_self, List.flatMap]
    rfl

/-- The report about a text is its block if it failed, and nothing if it passed. -/
theorem IsSilent.map_report
    {outcome : Outcome}
    (isSilent : outcome.IsSilent)
    (verbose : Bool) :
    (outcome.report { ReportStyle.standard with verbose := verbose }).map withoutEscapes =
      if outcome.success then [] else outcome.block verbose := by
  cases isSuccess : outcome.success with
  | true =>
      simp [report, isSuccess, isSilent isSuccess]
  | false =>
      have areLines (diagnostic : Diagnostic) :
          (outcome.findingLines { ReportStyle.standard with verbose := verbose } diagnostic).map
              withoutEscapes =
            outcome.writtenFinding diagnostic ::
              (if verbose then outcome.writtenContext diagnostic else []) := by
        cases verbose <;> rfl
      simp only [report, isSuccess, Bool.false_eq_true, ↓reduceIte, List.map_append,
        List.map_flatMap, areLines]
      rfl

/-- The reports about some texts are the blocks of those that failed. -/
theorem flatMap_report
    {outcomes : List Outcome}
    (areSilent : ∀ outcome ∈ outcomes, outcome.IsSilent)
    (verbose : Bool) :
    (outcomes.flatMap fun outcome =>
        outcome.report { ReportStyle.standard with verbose := verbose }).map withoutEscapes =
      (failures outcomes).flatMap (block verbose) := by
  induction outcomes with
  | nil =>
      rfl
  | cons outcome outcomes inductionHypothesis =>
      obtain ⟨isSilent, areLater⟩ := List.forall_mem_cons.mp areSilent
      rw [List.flatMap_cons, List.map_append, isSilent.map_report verbose,
        inductionHypothesis areLater]
      cases isSuccess : outcome.success <;> simp [failures, isSuccess]

/-- There are no failures if everything succeeded. -/
theorem failures_eq_nil {outcomes : List Outcome} :
    failures outcomes = [] ↔ allSucceeded outcomes = true := by
  simp [failures, allSucceeded]

end Outcome

/-- What is written about a file that cannot be read, before all blocks. -/
def unreadLine? (read : FileReader) (path : String) : Option String :=
  match readSource read path with
  | .ok _ => none
  | .error fault => some s!"cannot read {path}: {fault.message}"

/-- What is written about the files that cannot be read. -/
def unreadLines (read : FileReader) (paths : List String) : List String :=
  paths.filterMap (unreadLine? read)

/-- The log about a text has no warning. -/
theorem level_of_mem_lintLog
    {file source : String}
    {mode : Mode}
    {entry : LogEntry}
    (member : entry ∈ lintLog file source mode) :
    entry.level = .debug := by
  rcases List.mem_append.mp member with earlier | isLast
  · rcases List.mem_append.mp earlier with isFirst | ofChecks
    · rw [List.mem_singleton.mp isFirst]
    · obtain ⟨sheet, _, inSheet⟩ := List.mem_flatMap.mp ofChecks
      obtain ⟨check, _, isEntry⟩ := List.mem_filterMap.mp inSheet
      unfold Check.logEntry? at isEntry
      dsimp only at isEntry
      split at isEntry
      · cases isEntry
      · cases isEntry
        rfl
  · rw [List.mem_singleton.mp isLast]

section File

variable {read : FileReader} {mode : Mode} {path : String} {linted : LintedFile}
  (isLinted : lintPath read mode path = .ok linted)

include isLinted

/-- What comes of a file: that of its text, or that it cannot be read. -/
theorem lintPath_cases :
    (∃ source,
        readSource read path = .ok source ∧
          linted = ⟨lint path source mode, lintLog path source mode⟩) ∨
      ∃ fault, readSource read path = .error fault ∧ linted = unreadable path fault := by
  revert isLinted
  fun_cases lintPath read mode path with
  | case1 source isRead =>
      exact fun isLinted => .inl ⟨source, isRead, (Except.ok.inj isLinted).symm⟩
  | case2 fault isRead endsRun =>
      rintro ⟨⟩
  | case3 fault isRead goesOn =>
      exact fun isLinted => .inr ⟨fault, isRead, (Except.ok.inj isLinted).symm⟩

/-- Nothing is found about a file that passes. -/
theorem isSilent_of_lintPath :
    linted.outcome.IsSilent := by
  intro isSuccess
  obtain ⟨source, _, rfl⟩ | ⟨fault, _, rfl⟩ := lintPath_cases isLinted
  · exact (success_lint path mode).mp isSuccess
  · cases isSuccess

/-- The log of a file warns when the file cannot be read. -/
theorem logLines_of_lintPath :
    linted.log.filterMap (CommandLine.logLine? false) = (unreadLine? read path).toList := by
  obtain ⟨source, isRead, rfl⟩ | ⟨fault, isRead, rfl⟩ := lintPath_cases isLinted
  · rw [unreadLine?, isRead]
    refine List.filterMap_eq_nil_iff.mpr fun entry member => ?_
    simp [CommandLine.logLine?, level_of_mem_lintLog member]
  · rw [unreadLine?, isRead]
    rfl

/-- A file that cannot be read fails. -/
theorem unreadLine?_of_success
    (isSuccess : linted.outcome.success = true) :
    unreadLine? read path = none := by
  obtain ⟨source, isRead, rfl⟩ | ⟨fault, _, rfl⟩ := lintPath_cases isLinted
  · rw [unreadLine?, isRead]
  · cases isSuccess

end File

section Files

variable {read : FileReader} {mode : Mode} {paths : List String} {files : List LintedFile}
  (areFiles : paths.map (lintPath read mode) = files.map .ok)

include areFiles

/-- Every linted file comes from one of the paths. -/
theorem exists_path_of_mem
    {linted : LintedFile}
    (member : linted ∈ files) :
    ∃ path ∈ paths, lintPath read mode path = .ok linted := by
  have isResult : .ok linted ∈ files.map (Except.ok : _ → Except ReadFault LintedFile) :=
    List.mem_map_of_mem member
  rw [← areFiles] at isResult
  exact List.mem_map.mp isResult

/-- The logs of some files warn of those that cannot be read. -/
theorem logLines_of_files :
    (files.flatMap fun file => file.log).filterMap (CommandLine.logLine? false) =
      unreadLines read paths := by
  induction paths generalizing files with
  | nil =>
      obtain rfl : files = [] := List.map_eq_nil_iff.mp areFiles.symm
      rfl
  | cons path paths inductionHypothesis =>
      obtain ⟨linted, others, rfl, isLinted, areOthers⟩ := List.map_eq_cons_iff.mp areFiles.symm
      rw [List.flatMap_cons, List.filterMap_append, inductionHypothesis areOthers.symm,
        logLines_of_lintPath isLinted.symm, unreadLines, unreadLines, List.filterMap_cons]
      cases unreadLine? read path <;> rfl

/-- All files can be read when all pass. -/
theorem unreadLines_of_success
    (areSuccesses : allSucceeded (files.map fun file => file.outcome) = true) :
    unreadLines read paths = [] := by
  refine List.filterMap_eq_nil_iff.mpr fun path isPath => ?_
  have isResult := List.mem_map_of_mem (f := lintPath read mode) isPath
  rw [areFiles] at isResult
  obtain ⟨linted, isFile, isLinted⟩ := List.mem_map.mp isResult
  exact unreadLine?_of_success isLinted.symm
    (List.all_eq_true.mp areSuccesses _ (List.mem_map_of_mem isFile))

end Files

namespace CommandLine

/-- What a run tells of some outcomes, after some warnings. -/
def Transcript.telling
    (verbose : Bool)
    (warnings : List String)
    (outcomes : List Outcome) :
    Transcript where
  exitStatus := if outcomes.all fun outcome => outcome.success then 0 else 1
  output := []
  errors := warnings ++ (Outcome.failures outcomes).flatMap (Outcome.block verbose)

/-- The run over files that have been linted, with the log in the order of its entries. -/
def Transcript.ofLog
    (settings : Settings)
    (log : List LogEntry)
    (files : List LintedFile) :
    Transcript :=
  { Transcript.ofFiles settings files with
      errors :=
        log.filterMap (logLine? settings.debug) ++
          ((files.map fun file => file.outcome).flatMap fun outcome =>
            outcome.report { ReportStyle.standard with verbose := settings.verbose }).map
              withoutEscapes }

/-- A run has the log of one file after the other. -/
theorem Transcript.ofFiles_eq_ofLog (settings : Settings) (files : List LintedFile) :
    Transcript.ofFiles settings files =
      Transcript.ofLog settings (files.flatMap fun file => file.log) files :=
  rfl

/-- Only no lines make an empty text. -/
theorem textOfLines_eq_empty {lines : List String} :
    textOfLines lines = "" ↔ lines = [] := by
  cases lines <;> simp [textOfLines, String.join_cons]

/-- Only the text around findings depends on the settings, if the log is not asked for. -/
theorem Transcript.ofLog_eq_telling
    {read : FileReader}
    {settings : Settings}
    {paths : List String}
    {files : List LintedFile}
    (areFiles : paths.map (lintPath read settings.mode) = files.map .ok)
    (noDebug : settings.debug = false)
    (log : List LogEntry) :
    Transcript.ofLog settings log files =
      Transcript.telling settings.verbose (log.filterMap (logLine? false))
        (files.map fun file => file.outcome) := by
  have areSilent : ∀ outcome ∈ files.map fun file => file.outcome, outcome.IsSilent := by
    intro outcome isOutcome
    obtain ⟨linted, isFile, rfl⟩ := List.mem_map.mp isOutcome
    obtain ⟨path, _, isLinted⟩ := exists_path_of_mem areFiles isFile
    exact isSilent_of_lintPath isLinted
  rw [Transcript.ofLog, noDebug, Outcome.flatMap_report areSilent]
  rfl

/-- A run over paths without null characters tells of its files. -/
theorem run_lint
    {read : FileReader}
    {settings : Settings}
    {paths : List String}
    {files : List LintedFile}
    (areFiles : paths.map (lintPath read settings.mode) = files.map .ok)
    (noDebug : settings.debug = false) :
    (Request.lint settings paths).run read =
      .ok (Transcript.telling settings.verbose (unreadLines read paths)
        (files.map fun file => file.outcome)) := by
  rw [Request.run, lintPaths_eq_ok.mpr areFiles, Except.map, Transcript.ofFiles_eq_ofLog,
    Transcript.ofLog_eq_telling areFiles noDebug, logLines_of_files areFiles]

/-- Nothing is written exactly when all files pass. -/
theorem textOfLines_telling
    {read : FileReader}
    {mode : Mode}
    {paths : List String}
    {files : List LintedFile}
    (areFiles : paths.map (lintPath read mode) = files.map .ok)
    (verbose : Bool) :
    let transcript :=
      Transcript.telling verbose (unreadLines read paths) (files.map fun file => file.outcome)
    textOfLines transcript.errors = "" ↔ transcript.exitStatus = 0 := by
  intro transcript
  have isStatus :
      transcript.exitStatus = 0 ↔ allSucceeded (files.map fun file => file.outcome) = true := by
    simp [transcript, Transcript.telling, allSucceeded]
  rw [textOfLines_eq_empty, isStatus, ← Outcome.failures_eq_nil]
  constructor
  · intro noLines
    obtain ⟨_, noBlocks⟩ := List.append_eq_nil_iff.mp noLines
    refine List.eq_nil_iff_forall_not_mem.mpr fun outcome isFailure => ?_
    exact List.cons_ne_nil _ _ (List.flatMap_eq_nil_iff.mp noBlocks outcome isFailure)
  · intro noFailures
    have noWarnings := unreadLines_of_success areFiles (Outcome.failures_eq_nil.mp noFailures)
    simp only [transcript, Transcript.telling, noWarnings, noFailures, List.flatMap_nil,
      List.append_nil]

/-- The number of jobs that some options ask for. -/
def givenJobs (given : List Given) : Except UsageFault Nat :=
  match (given.filterMap Given.jobs?).getLast? with
  | none => .ok 1
  | some value => readJobs value

/-- The settings that some options make, with a number of jobs. -/
def givenSettings (given : List Given) (jobs : Nat) : Settings where
  mode := if given.contains (.switch .syntaxOnly) then .syntaxOnly else .full
  verbose := given.contains (.switch .verbose)
  debug := ((given.filterMap Given.debug?).getLast?).getD false
  jobs := jobs

/-- The settings are those of the given options with the given number of workers. -/
theorem ofGiven_eq (given : List Given) :
    Settings.ofGiven given = (givenJobs given).map (givenSettings given) := by
  unfold Settings.ofGiven givenJobs
  cases (given.filterMap Given.jobs?).getLast? <;> rfl

/-- No option by itself asks for files to be linted. -/
theorem Given.request?_ne_lint
    (option : Given)
    (settings : Settings)
    (files : List String) :
    option.request? ≠ some (.lint settings files) := by
  intro isRequest
  unfold Given.request? at isRequest
  split at isRequest <;> cases isRequest

/-- The options and files of a command line make a request for files to be linted. -/
structure AsksFor
    (given : List Given)
    (settings : Settings)
    (files : List String) :
    Prop where
  noRequest : given.findSome? Given.request? = none
  settings : (givenJobs given).map (givenSettings given) = .ok settings
  someFile : files ≠ []

/-- The command lines that ask for files to be linted. -/
theorem ofArguments_eq_lint
    {arguments files : List String}
    {settings : Settings} :
    Request.ofArguments arguments = .ok (.lint settings files) ↔
      ∃ given, Arguments.read arguments = .ok ⟨given, files⟩ ∧ AsksFor given settings files := by
  constructor
  · fun_cases Request.ofArguments arguments with
    | case1 | case3 =>
        rintro ⟨⟩
    | case2 given others isRead request isRequest =>
        obtain ⟨option, _, isOption⟩ := List.exists_of_findSome?_eq_some isRequest
        intro isLint
        obtain rfl := Except.ok.inj isLint
        exact absurd isOption (option.request?_ne_lint settings files)
    | case4 given others isRead noRequest found isSettings =>
        cases isNone : others.isEmpty with
        | true =>
            simp
        | false =>
            simp only [Bool.false_eq_true, ↓reduceIte, Except.ok.injEq, Request.lint.injEq]
            rintro ⟨rfl, rfl⟩
            refine ⟨given, isRead, noRequest, ?_, List.isEmpty_eq_false_iff.mp isNone⟩
            rw [← ofGiven_eq, isSettings]
  · rintro ⟨given, isRead, noRequest, isSettings, someFile⟩
    rw [Request.ofArguments, isRead]
    simp only [noRequest, ofGiven_eq, isSettings, List.isEmpty_eq_false_iff.mpr someFile,
      Bool.false_eq_true, ↓reduceIte]

/-- The option to be verbose can be put in front of all arguments. -/
theorem read_verbose (arguments : List String) :
    Arguments.read ("-e" :: arguments) =
      (Arguments.read arguments).map (Arguments.addOptions [.switch .verbose]) := by
  have isVerbose : readOptions "-e" = .ok ⟨[.switch .verbose], none⟩ := by
    decide +kernel
  rw [Arguments.read, if_neg (by decide), if_pos (by decide), isVerbose]

/-- The option with the number of workers can be put in front of all arguments. -/
theorem read_jobs (value : String) (arguments : List String) :
    Arguments.read ("-j" :: value :: arguments) =
      (Arguments.read arguments).map (Arguments.addOptions [.jobs value]) := by
  have isJobs : readOptions "-j" = .ok ⟨[], some "-j"⟩ := by
    decide +kernel
  rw [Arguments.read, if_neg (by decide), if_pos (by decide), isJobs]
  rfl

namespace AsksFor

variable {given : List Given} {settings : Settings} {files : List String}
  (asks : AsksFor given settings files)

include asks

/-- The settings that are asked for have a number of workers. -/
theorem exists_jobs :
    ∃ jobs, givenJobs given = .ok jobs ∧ settings = givenSettings given jobs := by
  have isSettings := asks.settings
  cases isJobs : givenJobs given with
  | error fault =>
      rw [isJobs] at isSettings
      cases isSettings
  | ok jobs =>
      rw [isJobs] at isSettings
      exact ⟨jobs, rfl, (Except.ok.inj isSettings).symm⟩

/-- At least one worker is asked for. -/
theorem one_le_jobs : 1 ≤ settings.jobs := by
  obtain ⟨jobs, isJobs, rfl⟩ := asks.exists_jobs
  unfold givenJobs at isJobs
  split at isJobs
  · obtain rfl := Except.ok.inj isJobs
    exact Nat.le_refl 1
  · unfold readJobs at isJobs
    split at isJobs
    · cases isJobs
    · split at isJobs
      · cases isJobs
      · have isCount := Except.ok.inj isJobs
        change 1 ≤ jobs
        omega

/-- One more option for the text around findings changes this setting only. -/
theorem verbose :
    AsksFor (.switch .verbose :: given) { settings with verbose := true } files := by
  obtain ⟨jobs, isJobs, rfl⟩ := asks.exists_jobs
  refine ⟨asks.noRequest, ?_, asks.someFile⟩
  have sameJobs : givenJobs (.switch .verbose :: given) = .ok jobs := isJobs
  rw [sameJobs]
  simp [Except.map, givenSettings, Given.debug?]

/-- One more option for the number of jobs changes this setting at most. -/
theorem withJobs
    {value : String}
    {count : Nat}
    (isCount : readJobs value = .ok count) :
    ∃ jobs, AsksFor (.jobs value :: given) { settings with jobs := jobs } files := by
  obtain ⟨jobs, isJobs, rfl⟩ := asks.exists_jobs
  have someJobs : ∃ jobs, givenJobs (.jobs value :: given) = .ok jobs := by
    have isGiven :
        (Given.jobs value :: given).filterMap Given.jobs? =
          value :: given.filterMap Given.jobs? :=
      rfl
    unfold givenJobs at isJobs ⊢
    rw [isGiven, List.getLast?_cons]
    cases isLast : (given.filterMap Given.jobs?).getLast? with
    | none =>
        exact ⟨count, isCount⟩
    | some last =>
        rw [isLast] at isJobs
        exact ⟨jobs, isJobs⟩
  obtain ⟨changed, isChanged⟩ := someJobs
  refine ⟨changed, asks.noRequest, ?_, asks.someFile⟩
  rw [isChanged]
  simp [Except.map, givenSettings, Given.debug?]

end AsksFor

end CommandLine

namespace Pool

/-- What comes of the files that are left, and what has come of the others. -/
def owed (read : FileReader) (mode : Mode) (pool : Pool) : List (Except ReadFault LintedFile) :=
  (pool.waiting ++ pool.running).map (fun file => lintPath read mode file.1) ++
    pool.finished.map Prod.snd

/-- What the log says, in the order in which the files were finished. -/
def log (pool : Pool) : List LogEntry :=
  (pool.finished.map Prod.snd).reverse.flatMap fun result =>
    result.toOption.toList.flatMap fun linted => linted.log

section Run

variable {read : FileReader} {mode : Mode} {jobs : Nat} {paths : List String} {pool : Pool}

/-- No step of the workers changes what comes of the files. -/
theorem Step.owed_perm
    {next : Pool}
    (step : Step read mode jobs pool next) :
    (next.owed read mode).Perm (pool.owed read mode) := by
  cases step with
  | take _ =>
      exact (List.perm_middle.map _).append_right _
  | @finish file waiting before behind finished =>
      have isTaken :
          (waiting ++ (before ++ file :: behind)).Perm
            (file :: (waiting ++ (before ++ behind))) := by
        rw [← List.append_assoc, ← List.append_assoc]
        exact List.perm_middle
      have isMapped :=
        (isTaken.symm.map fun file => lintPath read mode file.1).append_right
          (finished.map Prod.snd)
      exact List.perm_middle.trans isMapped

/-- However the workers go on, the same comes of the files. -/
theorem owed_perm_of_steps
    {next : Pool}
    (steps : Relation.ReflTransGen (Step read mode jobs) pool next) :
    (next.owed read mode).Perm (pool.owed read mode) := by
  induction steps with
  | refl =>
      exact .refl _
  | tail _ step inductionHypothesis =>
      exact step.owed_perm.trans inductionHypothesis

/-- When no file is left, each has had its result. -/
theorem results_perm
    (steps : Relation.ReflTransGen (Step read mode jobs) (.ofPaths paths) pool)
    (isDone : pool.IsDone) :
    (pool.finished.map Prod.snd).Perm (paths.map (lintPath read mode)) := by
  have isFirst : (ofPaths paths).owed read mode = paths.map (lintPath read mode) := by
    have arePaths := congrArg (List.map (lintPath read mode)) (List.zipIdx_map_fst 0 paths)
    rw [List.map_map] at arePaths
    simpa [owed, ofPaths, Function.comp_def] using arePaths
  have isLast : pool.owed read mode = pool.finished.map Prod.snd := by
    simp [owed, isDone.1, isDone.2]
  have isOwed := owed_perm_of_steps steps
  rwa [isFirst, isLast] at isOwed

/-- When no file is left, the log has warned of the files that cannot be read, in some order. -/
theorem logLines_perm
    {files : List LintedFile}
    (areFiles : paths.map (lintPath read mode) = files.map .ok)
    (steps : Relation.ReflTransGen (Step read mode jobs) (.ofPaths paths) pool)
    (isDone : pool.IsDone) :
    (pool.log.filterMap (CommandLine.logLine? false)).Perm (unreadLines read paths) := by
  have areResults := (List.reverse_perm _).trans (results_perm steps isDone)
  rw [areFiles] at areResults
  have isLog :
      ((files.map (Except.ok : _ → Except ReadFault LintedFile)).flatMap fun result =>
          result.toOption.toList.flatMap fun linted => linted.log) =
        files.flatMap fun file => file.log := by
    simp [List.flatMap_map, Except.toOption]
  have isOrdered := areResults.flatMap_right fun result =>
    result.toOption.toList.flatMap fun linted => linted.log
  rw [isLog] at isOrdered
  rw [← logLines_of_files areFiles]
  exact isOrdered.filterMap _

/-- Whatever the workers have done, they can finish. -/
theorem exists_done
    (someWorker : 1 ≤ jobs)
    (pool : Pool) :
    ∃ last, Relation.ReflTransGen (Step read mode jobs) pool last ∧ last.IsDone := by
  have isWellFounded : WellFounded fun next pool => Step read mode jobs pool next :=
    wellFounded_step
  induction pool using isWellFounded.induction with
  | _ pool inductionHypothesis =>
      by_cases isDone : pool.IsDone
      · exact ⟨pool, .refl, isDone⟩
      · obtain ⟨next, step⟩ : ∃ next, Step read mode jobs pool next :=
          exists_step someWorker isDone
        obtain ⟨last, steps, isLast⟩ := inductionHypothesis next step
        exact ⟨last, .head step steps, isLast⟩

end Run

/-- What a run writes when workers have linted its files. -/
def transcript
    (settings : CommandLine.Settings)
    (paths : List String)
    (pool : Pool) :
    Except ReadFault CommandLine.Transcript :=
  (pool.answer paths).map (CommandLine.Transcript.ofLog settings pool.log)

end Pool

namespace CommandLine

/-- A run over files tells of those that failed, given what comes of each file. -/
structure Tells
    (read : FileReader)
    (arguments : List String)
    (settings : Settings)
    (paths : List String)
    (outcomes : List Outcome) :
    Prop where
  run :
    run read arguments =
      .ok (Transcript.telling settings.verbose (unreadLines read paths) outcomes)
  /-- Nothing is written exactly when the run exits with zero. -/
  silent :
    let transcript := Transcript.telling settings.verbose (unreadLines read paths) outcomes
    textOfLines transcript.errors = "" ↔ transcript.exitStatus = 0
  /-- On demand seven lines follow the line of each finding, and nothing else changes. -/
  verbose :
    CommandLine.run read ("-e" :: arguments) =
        .ok (Transcript.telling true (unreadLines read paths) outcomes) ∧
      ∀ outcome ∈ outcomes,
        ∃ (lines : List String) (contexts : List (List String)),
          lines.length = outcome.diagnostics.length ∧
            contexts.length = outcome.diagnostics.length ∧
            (∀ context ∈ contexts, context.length = 7) ∧
            outcome.block false = outcome.writtenHeading :: lines ∧
            outcome.block true =
              outcome.writtenHeading :: (List.zipWith List.cons lines contexts).flatten
  /-- The number of jobs changes nothing. -/
  jobs :
    ∀ value count, readJobs value = .ok count →
      CommandLine.run read ("-j" :: value :: arguments) = CommandLine.run read arguments
  /-- Command lines with the same files and mode tell the same, up to the text around findings. -/
  alike :
    ∀ others otherSettings,
      Request.ofArguments others = .ok (.lint otherSettings paths) →
      otherSettings.mode = settings.mode →
      otherSettings.debug = false →
      CommandLine.run read others =
        .ok (Transcript.telling otherSettings.verbose (unreadLines read paths) outcomes)
  /-- Whatever the workers have done, they can finish. -/
  finishes :
    ∀ pool,
      Relation.ReflTransGen (Pool.Step read settings.mode settings.jobs) (.ofPaths paths) pool →
      ∃ last,
        Relation.ReflTransGen (Pool.Step read settings.mode settings.jobs) pool last ∧
          last.IsDone
  /-- When they have, only the order of the warnings is theirs. -/
  schedules :
    ∀ pool,
      Relation.ReflTransGen (Pool.Step read settings.mode settings.jobs) (.ofPaths paths) pool →
      pool.IsDone →
      ∃ warnings,
        warnings.Perm (unreadLines read paths) ∧
          pool.transcript settings paths =
            .ok (Transcript.telling settings.verbose warnings outcomes)

/-- A run that lints files tells what comes of them. -/
theorem run_of_lint
    {read : FileReader}
    {arguments paths : List String}
    {settings : Settings}
    {files : List LintedFile}
    (isLint : Request.ofArguments arguments = .ok (.lint settings paths))
    (noDebug : settings.debug = false)
    (areFiles : paths.map (lintPath read settings.mode) = files.map .ok) :
    run read arguments =
      .ok (Transcript.telling settings.verbose (unreadLines read paths)
        (files.map fun file => file.outcome)) := by
  rw [run, isLint]
  exact run_lint areFiles noDebug

/--
Whatever the files are, a run that is asked to lint them, without its log and
without null characters in the paths, exits and writes as what comes of each file
has it: it exits with zero if all files pass and with one if not, and after the
warnings about files that cannot be read it writes one block about each file that
failed, in the order of the command line.
-/
theorem run_tells
    {arguments paths : List String}
    {settings : Settings}
    (isLint : Request.ofArguments arguments = .ok (.lint settings paths))
    (noDebug : settings.debug = false)
    (noNull : ∀ path ∈ paths, '\x00' ∉ path.toList)
    (read : FileReader) :
    ∃ files : List LintedFile,
      paths.map (lintPath read settings.mode) = files.map .ok ∧
        Tells read arguments settings paths (files.map fun file => file.outcome) := by
  obtain ⟨files, isRun⟩ := exists_files_of_no_null read settings.mode noNull
  have areFiles := lintPaths_eq_ok.mp isRun
  obtain ⟨given, isRead, asks⟩ := ofArguments_eq_lint.mp isLint
  refine ⟨files, areFiles, ?_⟩
  constructor
  case run =>
    exact run_of_lint isLint noDebug areFiles
  case silent =>
    exact textOfLines_telling areFiles settings.verbose
  case verbose =>
    refine ⟨?_, fun outcome _ => outcome.exists_contexts⟩
    have isLintVerbose :
        Request.ofArguments ("-e" :: arguments) =
          .ok (.lint { settings with verbose := true } paths) := by
      refine ofArguments_eq_lint.mpr ⟨_, ?_, asks.verbose⟩
      rw [read_verbose, isRead]
      rfl
    exact run_of_lint isLintVerbose noDebug areFiles
  case jobs =>
    intro value count isCount
    obtain ⟨jobs, asksWith⟩ := asks.withJobs isCount
    have isLintJobs :
        Request.ofArguments ("-j" :: value :: arguments) =
          .ok (.lint { settings with jobs := jobs } paths) := by
      refine ofArguments_eq_lint.mpr ⟨_, ?_, asksWith⟩
      rw [read_jobs, isRead]
      rfl
    exact (run_of_lint isLintJobs noDebug areFiles).trans (run_of_lint isLint noDebug areFiles).symm
  case alike =>
    intro others otherSettings isOther sameMode otherDebug
    rw [← sameMode] at areFiles
    exact run_of_lint isOther otherDebug areFiles
  case finishes =>
    exact fun pool _ => Pool.exists_done asks.one_le_jobs pool
  case schedules =>
    intro pool steps isDone
    refine ⟨_, Pool.logLines_perm areFiles steps isDone, ?_⟩
    rw [Pool.transcript, (Pool.sound_ofPaths.run steps).answer_eq isDone, isRun, Except.map,
      Transcript.ofLog_eq_telling areFiles noDebug]

/-- A folder with a style sheet, one that is none, and one with an unknown property. -/
def threeSheets : FileTree :=
  ((FileTree.empty.add ["a.qss"] (.file [97, 123, 125])).add ["b.qss"] (.file [97, 123])).add
    ["c.qss"] (.file [97, 123, 120, 58, 49, 125])

/-- Of five files, one of them given twice and one missing, four fail and are reported in order. -/
theorem run_tells_mixed :
    let arguments := ["-j4", "b.qss", "a.qss", "d.qss", "--", "c.qss", "b.qss"]
    let paths := ["b.qss", "a.qss", "d.qss", "c.qss", "b.qss"]
    let settings : Settings := ⟨.full, false, false, 4⟩
    let blocks :=
      [["Invalid stylesheet for b.qss",
          "b.qss:1:3: SYNTAX: expected '\x7d' before end of input"],
        ["Invalid stylesheet for d.qss",
          "d.qss:1:1: IO: cannot read file: [Errno 2] No such file or directory: 'd.qss'"],
        ["Invalid stylesheet for c.qss",
          "c.qss:1:3: SEMANTIC: unknown property: x"],
        ["Invalid stylesheet for b.qss",
          "b.qss:1:3: SYNTAX: expected '\x7d' before end of input"]]
    Request.ofArguments arguments = .ok (.lint settings paths) ∧
      settings.debug = false ∧
      (∀ path ∈ paths, '\x00' ∉ path.toList) ∧
      ∃ files : List LintedFile,
        paths.map (lintPath threeSheets.read .full) = files.map .ok ∧
          Tells threeSheets.read arguments settings paths (files.map fun file => file.outcome) ∧
          ((Outcome.failures (files.map fun file => file.outcome)).map (Outcome.block false)) =
            blocks := by
  intro arguments paths settings blocks
  have isLint : Request.ofArguments arguments = .ok (.lint settings paths) := by
    decide +kernel
  have noNull : ∀ path ∈ paths, '\x00' ∉ path.toList := by
    decide
  obtain ⟨files, areFiles, tells⟩ := run_tells isLint rfl noNull threeSheets.read
  have areBlocks :
      ((lintPaths threeSheets.read .full paths).map fun files =>
          (Outcome.failures (files.map fun file => file.outcome)).map (Outcome.block false)) =
        .ok blocks := by
    decide +kernel
  rw [lintPaths_eq_ok.mpr areFiles] at areBlocks
  exact ⟨isLint, rfl, noNull, files, areFiles, tells, Except.ok.inj areBlocks⟩

end CommandLine

end QtSheet

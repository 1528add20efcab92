import Sharpen.Proofs.Files.Outputs

/-!
# What becomes of every file

A run loads files, leaves some of them out, converts the rest and writes or prints their code. Each
of these steps passes on a part of what it was given, so nothing must get lost between two of them.
Here every file that was found is followed to the end.

`fate` says what becomes of a file when the files before it are known: it fails to load, it is
skipped because a file before it has the same recorded path, or it is taken. The main result is
`run_accounts_for_every_file`. From the fates alone it tells what a run reports, counts, prints and
writes, and how it ends.
-/

namespace Sharpen

open List

/-- A file that was read: its path, and the unit in it or why there is none. -/
abbrev ReadFile := String × Except LoadFailure SourceUnit

variable {earlier : List ReadFile} {replacement : Option (String × String)}

/-! ## Fates -/

/-- The recorded path of the unit in a file, if there is one. -/
def recordedPath? (replacement : Option (String × String)) (file : ReadFile) : Option String :=
  file.2.toOption.map fun unit => replacedPath unit.path replacement

/-- What becomes of a file behind earlier ones. -/
def fate (replacement : Option (String × String)) (earlier : List ReadFile) : ReadFile → LoadEvent
  | (source, .error failure) =>
    .reported (.error source (failure.message source) Diagnostic.fileCode)
  | (source, .ok unit) =>
    let path := replacedPath unit.path replacement
    if ∃ other ∈ earlier, recordedPath? replacement other = some path then
      .reported (.warning source ("unit path " ++ path ++ " already seen; skipped")
        Diagnostic.fileCode)
    else .loaded ⟨source, { unit with path }⟩

/-- What becomes of files, each behind those before it. -/
def fates (replacement : Option (String × String)) (files : List ReadFile) : List LoadEvent :=
  files.mapIdx fun index file => fate replacement (files.take index) file

/-- The paths seen so far are those of the earlier files, whether these were taken or skipped. -/
theorem loadEvents_eq_mapIdx {seen : List String} (files : List ReadFile)
    (hseen : ∀ path, path ∈ seen ↔ ∃ other ∈ earlier, recordedPath? replacement other = some path) :
    loadEvents replacement seen files =
      files.mapIdx fun index file => fate replacement (earlier ++ files.take index) file := by
  -- the paths seen are those of the files before, whatever became of these files
  induction files generalizing seen earlier with
  | nil => rfl
  | cons file rest ih =>
    have hstep : ∀ {seen : List String},
        (∀ path, path ∈ seen ↔ ∃ other ∈ earlier ++ [file],
          recordedPath? replacement other = some path) →
        loadEvents replacement seen rest =
          rest.mapIdx fun index next =>
            fate replacement (earlier ++ (file :: rest).take (index + 1)) next := by
      intro seen hseen
      rw [ih hseen]
      simp only [take_succ_cons, append_assoc, singleton_append]
    rw [mapIdx_cons, take_zero, append_nil]
    obtain ⟨source, _ | unit⟩ := file
    · rw [loadEvents, fate, hstep]
      intro path
      rw [hseen path]
      simp [recordedPath?, Except.toOption]
    · have hpaths : ∀ path, (∃ other ∈ earlier ++ [(source, .ok unit)],
          recordedPath? replacement other = some path) ↔
            (∃ other ∈ earlier, recordedPath? replacement other = some path) ∨
              replacedPath unit.path replacement = path := by
        intro path
        simp [recordedPath?, Except.toOption, or_and_right, exists_or]
      rw [loadEvents, fate]
      by_cases hpath : replacedPath unit.path replacement ∈ seen
      · rw [if_pos (contains_iff_mem.mpr hpath), if_pos ((hseen _).mp hpath), hstep]
        intro path
        rw [hpaths path, ← hseen path]
        exact ⟨.inl, fun h => h.elim id fun heq => heq ▸ hpath⟩
      · rw [if_neg (fun h => hpath (contains_iff_mem.mp h)),
          if_neg (fun h => hpath ((hseen _).mpr h)), hstep]
        intro path
        rw [hpaths path, ← hseen path, mem_cons, or_comm, eq_comm]

theorem loadEvents_eq_fates (replacement : Option (String × String)) (files : List ReadFile) :
    loadEvents replacement [] files = fates replacement files :=
  loadEvents_eq_mapIdx files (by simp : ∀ path, path ∈ [] ↔ ∃ other ∈ [], _)

/-! ## Kinds of diagnostics -/

namespace Diagnostic

/-- The report of a file that fails to load. -/
def isLoadFailure (diagnostic : Diagnostic) : Bool :=
  diagnostic.isError && diagnostic.code == fileCode

/-- The report of a file that is skipped. -/
def isSkip (diagnostic : Diagnostic) : Bool :=
  !diagnostic.isError

/-- The report of a unit that could not be converted. -/
def isConversionFailure (diagnostic : Diagnostic) : Bool :=
  diagnostic.isError && (diagnostic.code == unimplementedCode || diagnostic.code == unsupportedCode)

end Diagnostic

/-- What a file is reported as, if it is. -/
inductive FileReport : Diagnostic → Prop where
  | failed (source message : String) : FileReport (.error source message Diagnostic.fileCode)
  | skipped (source message : String) : FileReport (.warning source message Diagnostic.fileCode)

theorem fileReport_of_fate {file : ReadFile} {diagnostic : Diagnostic}
    (h : fate replacement earlier file = .reported diagnostic) : FileReport diagnostic := by
  unfold fate at h
  split at h
  · cases h
    exact .failed ..
  · dsimp only at h
    split at h
    · cases h
      exact .skipped ..
    · cases h

theorem fileReport_of_mem_fates {files : List ReadFile} {diagnostic : Diagnostic}
    (h : .reported diagnostic ∈ fates replacement files) : FileReport diagnostic := by
  obtain ⟨_, _, heq⟩ := mem_mapIdx.mp h
  exact fileReport_of_fate heq

/-- Every event is a unit, a failure or a skip, and only one of them. -/
theorem length_eq_of_fileReports {events : List LoadEvent}
    (h : ∀ diagnostic, .reported diagnostic ∈ events → FileReport diagnostic) :
    let reports := events.filterMap LoadEvent.diagnostic?
    events.length = (events.filterMap LoadEvent.unit?).length +
      reports.countP Diagnostic.isLoadFailure +
      reports.countP Diagnostic.isSkip := by
  intro reports
  unfold reports
  induction events with
  | nil => rfl
  | cons event rest ih =>
    have hrest := ih fun diagnostic hmem => h diagnostic (mem_cons_of_mem _ hmem)
    cases event with
    | loaded =>
      rw [filterMap_cons_some (rfl : LoadEvent.unit? _ = some _),
        filterMap_cons_none (rfl : LoadEvent.diagnostic? _ = none), length_cons, length_cons]
      omega
    | reported diagnostic =>
      rw [filterMap_cons_none (rfl : LoadEvent.unit? _ = none),
        filterMap_cons_some (rfl : LoadEvent.diagnostic? _ = some _), length_cons]
      cases h diagnostic (mem_cons_self ..) with
      | failed =>
        rw [countP_cons_of_pos rfl, countP_cons_of_neg Bool.false_ne_true]
        omega
      | skipped =>
        rw [countP_cons_of_neg Bool.false_ne_true, countP_cons_of_pos rfl]
        omega

/-- A file is skipped if and only if a file before it records the same path. -/
theorem isSkip_fate_iff {file : ReadFile} :
    (fate replacement earlier file).diagnostic?.any Diagnostic.isSkip ↔
      ∃ path, recordedPath? replacement file = some path ∧
        ∃ other ∈ earlier, recordedPath? replacement other = some path := by
  obtain ⟨source, _ | unit⟩ := file
  · constructor
    · intro h
      cases h
    · rintro ⟨_, ⟨⟩, -⟩
  · have hpath : recordedPath? replacement (source, .ok unit) =
      some (replacedPath unit.path replacement) := rfl
    rw [fate]
    split
    · next hseen => exact ⟨fun _ => ⟨_, hpath, hseen⟩, fun _ => rfl⟩
    · next hfresh =>
      refine ⟨fun h => (nomatch h), ?_⟩
      rintro ⟨_, hsame, hseen⟩
      obtain rfl := Option.some.inj (hpath.symm.trans hsame)
      exact absurd hseen hfresh

/-! ## Units -/

/-- The units that could not be converted, with their errors. -/
def failures (options : Options) (units : List LoadedUnit) : List UnitFailure :=
  units.filterMap fun loaded =>
    match loaded.unit.code options with
    | .ok _ => none
    | .error error => some ⟨loaded.unit.path, error⟩

theorem failures_ofResults (options : Options) (units : List LoadedUnit) :
    (BatchOutput.ofResults ((units.map (·.unit)).map fun unit =>
      (unit.path, unit.code options))).failures =
      failures options units := by
  dsimp only [BatchOutput.ofResults]
  rw [failures, filterMap_map, filterMap_map]
  refine filterMap_congr fun loaded _ => ?_
  dsimp only [Function.comp]
  cases loaded.unit.code options with
  | ok code => rfl
  | error error => rfl

/-- Each unit is converted or fails. -/
theorem length_conversions_add_failures (options : Options) (units : List LoadedUnit) :
    units.length = (conversions options units).length + (failures options units).length := by
  induction units with
  | nil => rfl
  | cons loaded rest ih =>
    rw [conversions, failures, filterMap_cons, filterMap_cons]
    cases loaded.unit.code options with
    | ok code =>
      change rest.length + 1 = (conversions options rest).length + 1 +
        (failures options rest).length
      omega
    | error error =>
      change rest.length + 1 = (conversions options rest).length +
        ((failures options rest).length + 1)
      omega

theorem failures_eq_nil_iff {options : Options} {units : List LoadedUnit} :
    failures options units = [] ↔ ∀ loaded ∈ units, ∃ code, loaded.unit.code options =
      .ok code := by
  rw [failures, filterMap_eq_nil_iff]
  refine forall₂_congr fun loaded _ => ?_
  cases loaded.unit.code options with
  | ok code => simp
  | error error => simp

/-- The report of a failure is of its own kind. -/
theorem kinds_of_failure (failure : UnitFailure) :
    failure.diagnostic.isConversionFailure ∧ ¬ failure.diagnostic.isLoadFailure ∧
      ¬ failure.diagnostic.isSkip := by
  obtain ⟨_, error⟩ := failure
  cases error with
  | unimplemented | unsupported => exact ⟨rfl, Bool.false_ne_true, Bool.false_ne_true⟩

/-! ## Outcomes -/

def takenUnits (arguments : Arguments) (files : List ReadFile) : List LoadedUnit :=
  (fates arguments.pathReplacement files).filterMap LoadEvent.unit?

/-- What is reported about the units that are taken, or about their absence. -/
def unitReports (options : Options) (units : List LoadedUnit) : List Diagnostic :=
  if units.isEmpty then [.error "" BatchError.noUnits.message BatchError.noUnits.code]
  else (failures options units).map UnitFailure.diagnostic

/-- An outcome reports and counts every file. -/
structure RunOutcome.AccountsFor (arguments : Arguments) (files : List ReadFile)
    (outcome : RunOutcome) :
    Prop where
  /-- every file is loaded, fails to load or is skipped -/
  files_length : files.length =
    outcome.unitCount + outcome.diagnostics.countP Diagnostic.isLoadFailure +
    outcome.diagnostics.countP Diagnostic.isSkip
  /-- a file is skipped if and only if one before it records the same path -/
  skipped_iff : ∀ index file, files[index]? = some file →
    (((fates arguments.pathReplacement files)[index]?.bind LoadEvent.diagnostic?).any
      Diagnostic.isSkip ↔
      ∃ path, recordedPath? arguments.pathReplacement file = some path ∧
        ∃ other ∈ files.take index, recordedPath? arguments.pathReplacement other = some path)
  /-- every unit is converted or fails -/
  unitCount_eq : outcome.unitCount =
    outcome.convertedCount + outcome.diagnostics.countP Diagnostic.isConversionFailure
  unitCount_length : outcome.unitCount = (takenUnits arguments files).length
  convertedCount_length : outcome.convertedCount =
    (conversions arguments.options (takenUnits arguments files)).length
  /-- the files are reported on in their order, then the units in theirs -/
  diagnostics_eq : outcome.diagnostics =
    (fates arguments.pathReplacement files).filterMap LoadEvent.diagnostic? ++
      unitReports arguments.options (takenUnits arguments files)
  success_iff : outcome.exitStatus = .success ↔ 0 < outcome.unitCount ∧
    (∀ file ∈ files, ∃ unit, file.2 = .ok unit) ∧
    ∀ loaded ∈ takenUnits arguments files, ∃ code, loaded.unit.code arguments.options = .ok code
  batchFailed_iff : outcome.exitStatus = .batchFailed ↔ outcome.unitCount = 0

section Reports

variable {options : Options} {units : List LoadedUnit}

theorem countP_unitReports_of_not {p : Diagnostic → Bool}
    (hbatch : ¬ p (.error "" BatchError.noUnits.message BatchError.noUnits.code))
    (hfailure : ∀ failure : UnitFailure, ¬ p failure.diagnostic) :
    (unitReports options units).countP p = 0 := by
  rw [countP_eq_zero, unitReports]
  split
  · exact forall_mem_singleton.mpr hbatch
  · exact forall_mem_map.mpr fun failure _ => hfailure failure

theorem countP_unitReports_failure :
    (unitReports options units).countP Diagnostic.isConversionFailure =
      (failures options units).length := by
  rw [unitReports]
  split
  · next hempty =>
    rw [isEmpty_iff.mp hempty]
    rfl
  · rw [countP_map]
    exact countP_eq_length.mpr fun failure _ => (kinds_of_failure failure).1

theorem any_isError_unitReports (hunits : units ≠ []) :
    (unitReports options units).any Diagnostic.isError ↔ failures options units ≠ [] := by
  rw [unitReports, if_neg (fun h => hunits (isEmpty_iff.mp h)), any_map]
  have herror : Diagnostic.isError ∘ UnitFailure.diagnostic = fun _ => true := rfl
  rw [herror]
  cases failures options units with
  | nil => simp
  | cons failure rest => simp

end Reports

theorem mem_fates_reports {files : List ReadFile} {diagnostic : Diagnostic} :
    diagnostic ∈ (fates replacement files).filterMap LoadEvent.diagnostic? ↔
      ∃ (index : Nat) (hindex : index < files.length),
        (fate replacement (files.take index) files[index]).diagnostic? = some diagnostic := by
  rw [mem_filterMap]
  constructor
  · rintro ⟨_, hevent, hreport⟩
    obtain ⟨index, hindex, rfl⟩ := mem_mapIdx.mp hevent
    exact ⟨index, hindex, hreport⟩
  · rintro ⟨index, hindex, hreport⟩
    exact ⟨_, mem_mapIdx.mpr ⟨index, hindex, rfl⟩, hreport⟩

theorem fileReport_of_mem_reports {files : List ReadFile} {diagnostic : Diagnostic}
    (h : diagnostic ∈ (fates replacement files).filterMap LoadEvent.diagnostic?) :
    FileReport diagnostic := by
  obtain ⟨event, hevent, hreport⟩ := mem_filterMap.mp h
  cases event with
  | loaded => cases hreport
  | reported =>
    cases hreport
    exact fileReport_of_mem_fates hevent

/-- An error is reported about files if and only if one of them fails to load. -/
theorem any_isError_fates {files : List ReadFile} :
    ((fates replacement files).filterMap LoadEvent.diagnostic?).any Diagnostic.isError ↔
      ∃ file ∈ files, ∃ failure, file.2 = .error failure := by
  rw [any_eq_true]
  constructor
  · rintro ⟨_, hmem, herror⟩
    obtain ⟨index, hindex, hreport⟩ := mem_fates_reports.mp hmem
    refine ⟨_, getElem_mem hindex, ?_⟩
    generalize files[index] = file at hreport ⊢
    obtain ⟨_, failure | _⟩ := file
    · exact ⟨failure, rfl⟩
    · -- a file that loads is reported as skipped at most
      rw [fate] at hreport
      split at hreport
      · cases hreport
        cases herror
      · cases hreport
  · rintro ⟨_, hfile, failure, hfailure⟩
    obtain ⟨index, hindex, rfl⟩ := mem_iff_getElem.mp hfile
    rcases hget : files[index] with ⟨source, result⟩
    rw [hget] at hfailure
    obtain rfl := hfailure
    refine ⟨.error source (failure.message source) Diagnostic.fileCode, ?_, rfl⟩
    refine mem_fates_reports.mpr ⟨index, hindex, ?_⟩
    rw [hget]
    rfl

/-- The outcome of a plan, whatever is written later. -/
theorem plan_outcome (arguments : Arguments) (files : List ReadFile) :
    let units := takenUnits arguments files
    let converted := conversions arguments.options units
    let outcome := (RunPlan.ofFiles arguments files).outcome
    outcome.unitCount = units.length ∧ outcome.convertedCount = converted.length ∧
      outcome.diagnostics =
        (fates arguments.pathReplacement files).filterMap LoadEvent.diagnostic? ++
        unitReports arguments.options units ∧
      outcome.printed =
        if arguments.stdout then converted.map fun conversion =>
          (conversion.loaded.unit.path, conversion.code)
        else [] := by
  have hunits : (fates arguments.pathReplacement files).filterMap LoadEvent.unit? =
    takenUnits arguments files :=
    rfl
  have hconverted := converted_ofResults arguments.options (takenUnits arguments files)
  have hfailures := failures_ofResults arguments.options (takenUnits arguments files)
  intro units converted outcome
  unfold outcome RunPlan.ofFiles convertBatch
  dsimp only
  rw [loadEvents_eq_fates, hunits]
  by_cases hempty : (takenUnits arguments files).isEmpty
  · have hnone : takenUnits arguments files = [] := isEmpty_iff.mp hempty
    unfold converted units
    rw [hnone]
    exact ⟨rfl, rfl, rfl, (ite_self _).symm⟩
  · rw [isEmpty_map, if_neg hempty]
    dsimp only [RunPlan.ofBatch]
    rw [hconverted, hfailures, unitReports, if_neg hempty]
    cases arguments.stdout with
    | true | false => exact ⟨rfl, length_map _, rfl, rfl⟩

section Accounts

variable {arguments : Arguments} {files : List ReadFile} {outcome : RunOutcome}

/-- The counts and diagnostics of an outcome are all that the account depends on. -/
theorem RunOutcome.AccountsFor.of_reports
    (hunits : outcome.unitCount = (takenUnits arguments files).length)
    (hconverted : outcome.convertedCount =
      (conversions arguments.options (takenUnits arguments files)).length)
    (hdiagnostics : outcome.diagnostics =
      (fates arguments.pathReplacement files).filterMap LoadEvent.diagnostic? ++
      unitReports arguments.options (takenUnits arguments files)) :
    outcome.AccountsFor arguments files where
  files_length := by
    have hlength := length_eq_of_fileReports (fun _ => fileReport_of_mem_fates :
      ∀ diagnostic, .reported diagnostic ∈ fates arguments.pathReplacement files → _)
    rw [fates, length_mapIdx] at hlength
    have hfailed :
      (unitReports arguments.options (takenUnits arguments files)).countP Diagnostic.isLoadFailure =
      0 :=
      countP_unitReports_of_not Bool.false_ne_true fun failure => (kinds_of_failure failure).2.1
    have hskipped :
      (unitReports arguments.options (takenUnits arguments files)).countP Diagnostic.isSkip = 0 :=
      countP_unitReports_of_not Bool.false_ne_true fun failure => (kinds_of_failure failure).2.2
    rw [hdiagnostics, countP_append, countP_append, hfailed, hskipped, hunits]
    exact hlength
  skipped_iff := by
    intro index file hfile
    have hfate : (fates arguments.pathReplacement files)[index]? =
        some (fate arguments.pathReplacement (files.take index) file) := by
      rw [fates, List.getElem?_mapIdx, hfile, Option.map_some]
    rw [hfate]
    exact isSkip_fate_iff
  unitCount_eq := by
    -- no report on a file is one on a conversion
    have hfiles : ((fates arguments.pathReplacement files).filterMap LoadEvent.diagnostic?).countP
        Diagnostic.isConversionFailure = 0 := by
      refine countP_eq_zero.mpr fun diagnostic hmem => ?_
      cases fileReport_of_mem_reports hmem with
      | failed | skipped => exact Bool.false_ne_true
    rw [hdiagnostics, countP_append, hfiles, countP_unitReports_failure, hunits,
      hconverted, Nat.zero_add]
    exact length_conversions_add_failures ..
  unitCount_length := hunits
  convertedCount_length := hconverted
  diagnostics_eq := hdiagnostics
  success_iff := by
    have hloads : (¬ ∃ file ∈ files, ∃ failure, file.2 = .error failure) ↔
        ∀ file ∈ files, ∃ unit, file.2 = .ok unit := by
      push Not
      refine forall₂_congr fun file _ => ?_
      cases file.2 with
      | ok unit => simp
      | error failure => simp
    rw [exitStatus, ← hloads, ← failures_eq_nil_iff]
    by_cases hzero : outcome.unitCount = 0
    · rw [if_pos hzero, hzero]
      exact ⟨fun h => (nomatch h), fun h => absurd h.1 (Nat.lt_irrefl 0)⟩
    · have hsome : takenUnits arguments files ≠ [] := by
        intro hnone
        rw [hunits, hnone] at hzero
        exact hzero rfl
      have herrors : outcome.diagnostics.any Diagnostic.isError ↔
        (∃ file ∈ files, ∃ failure, file.2 = .error failure) ∨
          failures arguments.options (takenUnits arguments files) ≠ [] := by
        rw [hdiagnostics, any_append, Bool.or_eq_true, any_isError_fates,
          any_isError_unitReports hsome]
      rw [if_neg hzero]
      by_cases hany : outcome.diagnostics.any Diagnostic.isError
      · rw [if_pos hany]
        refine ⟨fun h => (nomatch h), fun ⟨_, hfiles, hfailures⟩ => ?_⟩
        exact absurd (herrors.mp hany) (not_or.mpr ⟨hfiles, not_not.mpr hfailures⟩)
      · rw [if_neg hany]
        obtain ⟨hfiles, hfailures⟩ := not_or.mp (mt herrors.mpr hany)
        exact ⟨fun _ => ⟨Nat.pos_of_ne_zero hzero, hfiles, not_not.mp hfailures⟩, fun _ => rfl⟩
  batchFailed_iff := by
    rw [exitStatus]
    split
    · next hzero => exact ⟨fun _ => hzero, fun _ => rfl⟩
    · next hsome =>
      refine ⟨fun h => ?_, fun h => absurd h hsome⟩
      split at h <;> cases h

end Accounts

/-! ## Whole runs -/

/-- What is printed is not written. -/
theorem plan_outputs_of_stdout {arguments : Arguments} (hprints : arguments.stdout = true)
    (files : List ReadFile) : (RunPlan.ofFiles arguments files).outputs = [] := by
  unfold RunPlan.ofFiles
  dsimp only
  split
  · rw [RunPlan.ofBatch, hprints]
    rfl
  · rfl

/-- A run accounts for every file that was found: it is converted, or reported as what happened to
it. The code of each unit is the code of that unit alone. In the order of the files it is printed,
and nothing is written; or it is written, and a file holds the code of the last unit that was
written to its place. -/
theorem run_accounts_for_every_file {arguments : Arguments} {disk final : Disk}
    {outcome : RunOutcome} (h : (run Disk.fileSystem arguments).run disk = (.ok outcome, final)) :
    ∃ paths, (discoverUnits Disk.fileSystem arguments.inputs).run disk = (.ok paths, disk) ∧
      let files := paths.map fun path => (path, loadUnit (disk.readText? path))
      let converted := conversions arguments.options (takenUnits arguments files)
      outcome.AccountsFor arguments files ∧ (arguments.stdout = true → final = disk ∧
        outcome.emittedFiles = [] ∧
            outcome.printed = converted.map fun conversion =>
              (conversion.loaded.unit.path, conversion.code)) ∧
        (arguments.stdout = false → outcome.printed = [] ∧ outcome.emittedFiles.length =
          outcome.convertedCount ∧
            outcome.emittedFiles = converted.map (·.output arguments) ∧
            HoldsLast final (·.output arguments) (·.code) converted) := by
  obtain ⟨paths, _, hpaths, hwritten, rfl⟩ := run_succeeds_iff.mp h
  refine ⟨paths, hpaths, ?_⟩
  intro files converted
  obtain ⟨hunits, hconverted, hdiagnostics, hprinted⟩ := plan_outcome arguments files
  refine ⟨.of_reports hunits hconverted hdiagnostics, fun hprints => ?_, fun hwrites => ?_⟩
  · rw [plan_outputs_of_stdout hprints] at hwritten
    obtain ⟨rfl, rfl⟩ := Succeeds.pure hwritten
    rw [hprints] at hprinted
    exact ⟨rfl, rfl, hprinted⟩
  · have houtputs := (plan_ofFiles hwrites files).1
    rw [loadedUnits, loadEvents_eq_fates, ← takenUnits] at houtputs
    rw [houtputs] at hwritten
    obtain ⟨hemitted, hlast⟩ := holdsLast_of_writes hwritten
    rw [hwrites] at hprinted
    refine ⟨hprinted, ?_, hemitted, hlast⟩
    dsimp only
    rw [hemitted, length_map, hconverted]

/-- The text of a unit that cannot be converted. -/
def externalUnitText : String :=
  "\x7b\"path\":\"b.vb\",\"tree\":\x7b\"id\":0,\"members\":[\x7b\"id\":1,\"kind\":\"ExternalMethod\"," ++
    "\"identifier\":\"B\",\"library\":\"b\"\x7d]\x7d\x7d"

/-- A disk with a unit, a file that is none, the same unit again, and a unit that cannot be
converted. -/
def diskWithFailures : Disk :=
  ⟨.directory [("1", .file classUnitText.toUTF8), ("2", .file "?".toUTF8),
    ("3", .file classUnitText.toUTF8),
    ("4", .file externalUnitText.toUTF8)], []⟩

/-- The files of that disk as they are read. -/
def filesWithFailures : List ReadFile :=
  let unit : SourceUnit :=
    ⟨"x/a.vb", ⟨0, [], [], [⟨1, .type .class [] [] "A" [] [] [] [], {}⟩]⟩, {}⟩
  [("1", .ok unit), ("2", .error .malformed), ("3", .ok unit),
    ("4", .ok ⟨"b.vb", ⟨0, [], [], [⟨1, .externalMethod "B" "b", {}⟩]⟩, {}⟩)]

set_option maxRecDepth 20000 in
theorem ofText?_externalUnitText : SourceUnit.ofText? externalUnitText =
    some ⟨"b.vb", ⟨0, [], [], [⟨1, .externalMethod "B" "b", {}⟩]⟩, {}⟩ := by
  cbv

theorem load_filesWithFailures :
    ["1", "2", "3", "4"].map (fun path => (path, loadUnit (diskWithFailures.readText? path))) =
      filesWithFailures := by
  have hloads : ∀ {path text : String} {unit : SourceUnit},
    diskWithFailures.readText? path = some text →
      SourceUnit.ofText? text = some unit → loadUnit (diskWithFailures.readText? path) =
        .ok unit := by
    intro path text unit htext hunit
    simp only [htext, loadUnit, hunit]
  have hfirst : diskWithFailures.readText? "1" = some classUnitText :=
    Disk.readText?_of_file (by rfl) (by rfl)
  have hsecond : diskWithFailures.readText? "2" = some "?" :=
    Disk.readText?_of_file (by rfl) (by rfl)
  have hthird : diskWithFailures.readText? "3" = some classUnitText :=
    Disk.readText?_of_file (by rfl) (by rfl)
  have hfourth : diskWithFailures.readText? "4" = some externalUnitText :=
    Disk.readText?_of_file (by rfl) (by rfl)
  have hmalformed : loadUnit (diskWithFailures.readText? "2") = .error .malformed := by
    have hnone : SourceUnit.ofText? "?" = none := by cbv
    simp only [hsecond, loadUnit, hnone]
  rw [map_cons, map_cons, map_cons, map_cons, map_nil, hloads hfirst ofText?_classUnitText,
    hmalformed, hloads hthird ofText?_classUnitText, hloads hfourth ofText?_externalUnitText,
    filesWithFailures]

/-- Of four files one is printed, one cannot be loaded, one is skipped and one cannot be converted.
-/
theorem run_with_failures :
    ∃ outcome, (run Disk.fileSystem { inputs := ["1", "2", "3", "4"], stdout := true }).run
      diskWithFailures =
        (.ok outcome, diskWithFailures) ∧
      outcome.AccountsFor { inputs := ["1", "2", "3", "4"], stdout := true } filesWithFailures ∧
      outcome.printed = [("x/a.vb", "class A\n\x7b\n\x7d\n")] ∧ outcome.unitCount = 2 ∧
      outcome.convertedCount = 1 ∧ outcome.diagnostics.map (·.file) = ["2", "3", "b.vb"] ∧
      outcome.exitStatus = .unitsFailed := by
  let arguments : Arguments := { inputs := ["1", "2", "3", "4"], stdout := true }
  have hpaths : (discoverUnits Disk.fileSystem ["1", "2", "3", "4"]).run diskWithFailures =
      (.ok ["1", "2", "3", "4"], diskWithFailures) := by rfl
  have hrun : (run Disk.fileSystem arguments).run diskWithFailures =
      (.ok (RunPlan.ofFiles arguments filesWithFailures).outcome, diskWithFailures) := by
    refine run_succeeds_iff.mpr ⟨_, [], hpaths, ?_⟩
    rw [load_filesWithFailures]
    exact ⟨by rfl, by rfl⟩
  obtain ⟨_, hfound, haccount, _, -⟩ := run_accounts_for_every_file hrun
  rw [hpaths] at hfound
  cases hfound
  rw [load_filesWithFailures] at haccount
  exact ⟨_, hrun, haccount, by rfl, by rfl, by rfl, by rfl, by rfl⟩

end Sharpen

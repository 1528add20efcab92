import Mathlib
import Sharpen.Command.Run
import Sharpen.Proofs.Files.Disk
import Sharpen.Proofs.Files.Paths

/-!
# The files of a run

What a run leaves on a disk. Units are told apart by their recorded paths, but the file that a unit
is written to depends on less than that: the directories of a recorded path, its extension and its
`..` may all get lost. So two units can have one file, and then the later one is kept.

The main result is `files_hold_the_last_code`. It says which code is in a file after a run, whatever
was on the disk before. Every unit has a file of its own if no two of them are written to one place.
Below an output directory that is so for all units with plain recorded paths and one extension.
-/

namespace Sharpen

open List

/-! ## Actions on a disk -/

/-- An action succeeds from a disk: what it gives, and the disk it leaves. -/
def Succeeds {α : Type} (action : ExceptT RunError (StateM Disk) α) (disk : Disk) (result : α)
    (final : Disk) : Prop :=
  action.run disk = (.ok result, final)

namespace Succeeds

variable {α β : Type} {action : ExceptT RunError (StateM Disk) α} {disk final : Disk}

theorem bind_iff {next : α → ExceptT RunError (StateM Disk) β} {result : β} :
    Succeeds (action >>= next) disk result final ↔
      ∃ value middle, Succeeds action disk value middle ∧
        Succeeds (next value) middle result final := by
  have hbind : (action >>= next).run disk = ExceptT.bindCont next (action.run disk).1
    (action.run disk).2 := rfl
  unfold Succeeds
  rw [hbind]
  constructor
  · intro h
    rcases hrun : action.run disk with ⟨error | value, middle⟩
    · rw [hrun] at h
      cases h
    · rw [hrun] at h
      exact ⟨value, middle, rfl, h⟩
  · rintro ⟨_, _, hrun, h⟩
    rw [hrun]
    exact h

theorem bind {next : α → ExceptT RunError (StateM Disk) β} {result : β}
    (h : Succeeds (action >>= next) disk result final) :
    ∃ value middle, Succeeds action disk value middle ∧ Succeeds (next value) middle result final :=
  bind_iff.mp h

theorem pure {value result : α} (h : Succeeds (Pure.pure value) disk result final) :
    result = value ∧ final = disk := by
  cases h
  exact ⟨rfl, rfl⟩

theorem not_throw {error : RunError} {result : α} : ¬ Succeeds (throw error) disk result final := by
  rintro ⟨⟩

theorem lift_iff {effect : StateM Disk α} {result : α} :
    Succeeds (ExceptT.lift effect) disk result final ↔ effect disk = (result, final) := by
  have hlift : (ExceptT.lift effect : ExceptT RunError (StateM Disk) α).run disk =
      (.ok (effect disk).1, (effect disk).2) := rfl
  unfold Succeeds
  rw [hlift]
  constructor
  · intro h
    obtain ⟨hvalue, hdisk⟩ := Prod.mk.inj h
    exact Prod.ext (Except.ok.inj hvalue) hdisk
  · intro h
    rw [h]

theorem lift {effect : StateM Disk α} {result : α}
    (h : Succeeds (ExceptT.lift effect) disk result final) : effect disk = (result, final) :=
  lift_iff.mp h

/-- A change of the disk that must succeed, with what comes after it. -/
theorem attempt {change : Disk → Option Disk} {error : RunError}
    {next : ExceptT RunError (StateM Disk) α} {result : α}
    (h : Succeeds (do
      unless ← liftM (Disk.attempt change) do throw error
      next) disk result final) :
    ∃ changed, change disk = some changed ∧ Succeeds next changed result final := by
  obtain ⟨done, middle, hdone, h⟩ := h.bind
  replace hdone : Disk.attempt change disk = (done, middle) := hdone.lift
  unfold Disk.attempt at hdone
  split at hdone
  · next hchange =>
    cases hdone
    exact ⟨_, hchange, h⟩
  · cases hdone
    obtain ⟨_, _, hthrow, -⟩ := Succeeds.bind h
    exact absurd hthrow not_throw

end Succeeds

/-! ## One file -/

section Write

variable {disk final : Disk} {path code result : String}

/-- A file that is written stands where its path leads, and no other file is touched. -/
theorem writeOutput_grows
    (h : Succeeds (writeOutput Disk.fileSystem (path, code)) disk result final) :
    result = path ∧ ∃ place, final.resolve? path = some place ∧
      final.root.get? place = some (.file code.toUTF8) ∧ disk.Grows (· = place) final := by
  have hwrite : ∀ {before : Disk}, Succeeds (do
        unless ← liftM (Disk.attempt (·.write? path code.toUTF8)) do
          throw (RunError.notWritten path)
        return path) before result final →
      result = path ∧ ∃ place, final.resolve? path = some place ∧
        final.root.get? place = some (.file code.toUTF8) ∧ before.Grows (· = place) final := by
    intro before h
    obtain ⟨_, hchanged, h⟩ := h.attempt
    obtain ⟨rfl, rfl⟩ := h.pure
    exact ⟨rfl, Disk.grows_of_write? hchanged⟩
  unfold writeOutput at h
  dsimp only at h
  split at h
  · exact hwrite h
  · obtain ⟨_, hmiddle, h⟩ := h.attempt
    obtain ⟨hresult, place, hplace, hfile, hgrows⟩ := hwrite h
    have hall := (Disk.grows_of_makeDirectories? hmiddle).trans hgrows
    exact ⟨hresult, place, hplace, hfile, hall.mono fun _ h => h.resolve_left id⟩

/-- **Files one after the other**: a file that is written stays as it is until something is written
to the same place. -/
theorem writeOutputs_grow {outputs : List (String × String)} {emitted : List String}
    (h : Succeeds (outputs.mapM (writeOutput Disk.fileSystem)) disk emitted final) :
    emitted = outputs.map Prod.fst ∧
      disk.Grows (fun place => ∃ output ∈ outputs, final.resolve? output.1 = some place) final ∧
      ∀ before output after, outputs = before ++ output :: after → ∃ place,
        final.resolve? output.1 = some place ∧
          ((∀ later ∈ after, final.resolve? later.1 ≠ some place) →
            final.root.get? place = some (.file output.2.toUTF8)) := by
  induction outputs generalizing disk emitted with
  | nil =>
    obtain ⟨rfl, rfl⟩ := Succeeds.pure h
    exact ⟨rfl, .refl _, fun before output after heq => absurd heq (by simp)⟩
  | cons output rest ih =>
    rw [mapM_cons] at h
    obtain ⟨_, _, hfirst, h⟩ := h.bind
    obtain ⟨_, after, hrest, h⟩ := h.bind
    obtain ⟨rfl, rfl⟩ := h.pure
    obtain ⟨rfl, place, hplace, hfile, hgrows⟩ := writeOutput_grows hfirst
    obtain ⟨rfl, hlater, hcontents⟩ := ih hrest
    have hplace := hlater.resolve?_eq hplace
    refine ⟨rfl, (hgrows.trans hlater).mono ?_, fun before current after heq => ?_⟩
    · rintro _ (rfl | ⟨later, hmem, hother⟩)
      · exact ⟨output, mem_cons_self .., hplace⟩
      · exact ⟨later, mem_cons_of_mem _ hmem, hother⟩
    · cases before with
      | nil =>
        cases heq
        refine ⟨place, hplace, fun hnone => hlater.file ?_ hfile⟩
        rintro ⟨later, hmem, hother⟩
        exact hnone later hmem hother
      | cons first before =>
        obtain ⟨-, heq⟩ := List.cons.inj heq
        exact hcontents before current after heq

end Write

/-- The last item with a property. -/
theorem exists_last {α : Type} {p : α → Prop} {items : List α} (h : ∃ item ∈ items, p item) :
    ∃ before last after, items = before ++ last :: after ∧ p last ∧ ∀ later ∈ after, ¬ p later := by
  induction items with
  | nil =>
    obtain ⟨_, hitem, -⟩ := h
    cases hitem
  | cons first rest ih =>
    by_cases hrest : ∃ item ∈ rest, p item
    · obtain ⟨before, last, after, rfl, hlast, hafter⟩ := ih hrest
      exact ⟨first :: before, last, after, rfl, hlast, hafter⟩
    · obtain ⟨item, hitem, hp⟩ := h
      obtain rfl | hitem := mem_cons.mp hitem
      · exact ⟨[], item, rest, rfl, hp, fun later hlater hp => hrest ⟨later, hlater, hp⟩⟩
      · exact absurd ⟨item, hitem, hp⟩ hrest

theorem Disk.readText?_of_file {disk : Disk} {path text : String} {place : List String}
    (hplace : disk.resolve? path = some place)
    (hfile : disk.root.get? place = some (.file text.toUTF8)) :
    disk.readText? path = some text := by
  have hget : disk.get? path = some (.file text.toUTF8) := by
    rw [Disk.get?, hplace, Option.bind_some, hfile]
  rw [Disk.readText?, hget]
  exact dif_pos text.isValidUTF8

/-- A file holds the text of the last item that was written to its place. -/
def HoldsLast {α : Type} (disk : Disk) (path code : α → String) (items : List α) : Prop :=
  ∀ item ∈ items, ∃ before last after, items = before ++ last :: after ∧
    disk.resolve? (path last) = disk.resolve? (path item) ∧
    (∀ later ∈ after, disk.resolve? (path later) ≠ disk.resolve? (path item)) ∧
    disk.readText? (path item) = some (code last)

section Items

variable {α : Type} {items : List α} {path code : α → String} {disk final : Disk}

theorem holdsLast_of_writes {emitted : List String}
    (h : Succeeds ((items.map fun item => (path item, code item)).mapM
      (writeOutput Disk.fileSystem)) disk emitted final) :
    emitted = items.map path ∧ HoldsLast final path code items := by
  obtain ⟨hemitted, -, hcontents⟩ := writeOutputs_grow h
  rw [map_map] at hemitted
  refine ⟨hemitted, fun item hitem => ?_⟩
  obtain ⟨before, last, after, rfl, hsame, hafter⟩ :=
    exists_last (p := fun other => final.resolve? (path other) = final.resolve? (path item))
      ⟨item, hitem, rfl⟩
  refine ⟨before, last, after, rfl, hsame, hafter, ?_⟩
  rw [map_append, map_cons] at hcontents
  obtain ⟨_, hplace, hfile⟩ := hcontents _ _ _ rfl
  rw [hsame] at hplace
  refine Disk.readText?_of_file hplace (hfile (forall_mem_map.mpr fun later hlater => ?_))
  rw [← hplace]
  exact hafter later hlater

theorem HoldsLast.exists_place (h : HoldsLast disk path code items) {item : α}
    (hitem : item ∈ items) :
    ∃ place, disk.resolve? (path item) = some place := by
  obtain ⟨_, _, _, _, _, _, htext⟩ := h item hitem
  cases hplace : disk.resolve? (path item) with
  | none =>
    rw [Disk.readText?, Disk.get?, hplace] at htext
    cases htext
  | some place => exact ⟨place, rfl⟩

/-- If no two items lead to one place, each has a file of its own. -/
theorem HoldsLast.own (h : HoldsLast disk path code items)
    (hnodup : (items.map fun item => disk.resolve? (path item)).Nodup) :
    (items.map path).Nodup ∧ ∀ item ∈ items, disk.readText? (path item) = some (code item) := by
  refine ⟨Nodup.of_map disk.resolve? (by rwa [map_map]), fun item hitem => ?_⟩
  obtain ⟨before, last, after, rfl, hsame, -, htext⟩ := h item hitem
  have hmem : last ∈ before ++ last :: after := mem_append_right _ (mem_cons_self ..)
  rwa [inj_on_of_nodup_map hnodup hmem hitem hsame] at htext

end Items

/-! ## What is loaded -/

section Load

variable {disk final : Disk}

/-- Looking at the disk changes nothing. -/
theorem unitFiles_same {input : String} {paths : List String}
    (h : Succeeds (unitFiles Disk.fileSystem input) disk paths final) : final = disk := by
  unfold unitFiles at h
  obtain ⟨isFile, middle, hfile, h⟩ := h.bind
  replace hfile : (disk.isFile input, disk) = (isFile, middle) := hfile.lift
  cases hfile
  split at h
  · exact h.pure.2
  · obtain ⟨isDirectory, middle, hdirectory, h⟩ := h.bind
    replace hdirectory : (disk.isDirectory input, disk) = (isDirectory, middle) := hdirectory.lift
    cases hdirectory
    split at h
    · obtain ⟨found, middle, hfound, h⟩ := h.bind
      replace hfound : ((disk.filesBelow input).map (·.1), disk) = (found, middle) := hfound.lift
      cases hfound
      exact h.pure.2
    · exact absurd h Succeeds.not_throw

theorem discoverUnits_same {inputs paths : List String}
    (h : Succeeds (discoverUnits Disk.fileSystem inputs) disk paths final) : final = disk := by
  have hall : ∀ {lists : List (List String)} {after : Disk},
      Succeeds (inputs.mapM (unitFiles Disk.fileSystem)) disk lists after → after = disk := by
    clear h
    induction inputs with
    | nil => exact fun h => (Succeeds.pure h).2
    | cons input rest ih =>
      intro lists after h
      rw [mapM_cons] at h
      obtain ⟨_, _, hfound, hrest⟩ := h.bind
      obtain ⟨_, _, hmore, hlists⟩ := hrest.bind
      rw [unitFiles_same hfound] at hmore
      rw [hlists.pure.2, ih hmore]
  obtain ⟨_, _, hlists, hflat⟩ := Succeeds.bind h
  rw [hflat.pure.2, hall hlists]

theorem loadFiles_eq (disk : Disk) (paths : List String) :
    loadFiles Disk.fileSystem paths disk =
      (paths.map fun path => (path, loadUnit (disk.readText? path)), disk) := by
  unfold loadFiles
  induction paths with
  | nil => rfl
  | cons path rest ih =>
    rw [mapM_cons]
    change (let (read, after) := loadFiles Disk.fileSystem rest disk
      ((path, loadUnit (disk.readText? path)) :: read, after)) = _
    rw [loadFiles, ih]
    rfl

end Load

/-- The units of files that were read. -/
def loadedUnits (arguments : Arguments) (files : List (String × Except LoadFailure SourceUnit)) :
    List LoadedUnit :=
  (loadEvents arguments.pathReplacement [] files).filterMap LoadEvent.unit?

/-- Units have different recorded paths. -/
theorem nodup_loadEvents (replacement : Option (String × String)) (seen : List String)
    (files : List (String × Except LoadFailure SourceUnit)) :
    let units := (loadEvents replacement seen files).filterMap LoadEvent.unit?
    (units.map (·.unit.path)).Nodup ∧ ∀ loaded ∈ units, loaded.unit.path ∉ seen := by
  intro units
  fun_induction loadEvents replacement seen files with
  | case1 => exact ⟨nodup_nil, forall_mem_nil _⟩
  | case2 _ _ _ _ ih => exact ih
  | case3 _ _ _ _ _ _ _ ih => exact ih
  | case4 _ _ _ _ _ hseen ih =>
    obtain ⟨hnodup, hfresh⟩ := ih
    refine ⟨nodup_cons.mpr ⟨fun hmem => ?_, hnodup⟩,
      forall_mem_cons.mpr ⟨?_, fun loaded hloaded => ?_⟩⟩
    · obtain ⟨loaded, hloaded, heq⟩ := mem_map.mp hmem
      exact hfresh loaded hloaded (heq ▸ mem_cons_self ..)
    · simpa using hseen
    · exact fun hmem => hfresh loaded hloaded (mem_cons_of_mem _ hmem)

/-- A unit is found by its recorded path. -/
theorem find?_path {units : List LoadedUnit} (hnodup : (units.map (·.unit.path)).Nodup)
    {loaded : LoadedUnit} (h : loaded ∈ units) :
    units.find? (·.unit.path == loaded.unit.path) = some loaded := by
  induction units with
  | nil => cases h
  | cons first rest ih =>
    obtain ⟨hfirst, hnodup⟩ := nodup_cons.mp hnodup
    obtain rfl | h := mem_cons.mp h
    · rw [List.find?_cons, beq_self_eq_true]
    · have hne : first.unit.path ≠ loaded.unit.path :=
        fun heq => hfirst (mem_map.mpr ⟨loaded, h, heq.symm⟩)
      rw [List.find?_cons, beq_false_of_ne hne, ih hnodup h]

/-! ## What is converted -/

/-- A unit that was converted, and its code. -/
structure Conversion where
  loaded : LoadedUnit
  code : String

/-- The file that the code of a unit is written to. -/
def Conversion.output (arguments : Arguments) (conversion : Conversion) : String :=
  outputPath conversion.loaded.unit.path conversion.loaded.source arguments.outDir

/-- The units that can be converted, with their code. -/
def conversions (options : Options) (units : List LoadedUnit) : List Conversion :=
  units.filterMap fun loaded => (loaded.unit.code options).toOption.map (⟨loaded, ·⟩)

theorem conversions_sublist (options : Options) (units : List LoadedUnit) :
    ((conversions options units).map (·.loaded)).Sublist units := by
  induction units with
  | nil => exact .slnil
  | cons loaded rest ih =>
    rw [conversions, filterMap_cons]
    cases loaded.unit.code options with
    | ok code => exact ih.cons_cons loaded
    | error error => exact ih.cons loaded

theorem converted_ofResults (options : Options) (units : List LoadedUnit) :
    (BatchOutput.ofResults ((units.map (·.unit)).map fun unit =>
      (unit.path, unit.code options))).converted =
      (conversions options units).map fun conversion =>
        (conversion.loaded.unit.path, conversion.code) := by
  rw [BatchOutput.ofResults, conversions, map_filterMap, filterMap_map, filterMap_map]
  refine filterMap_congr fun loaded _ => ?_
  dsimp only [Function.comp]
  cases loaded.unit.code options with
  | ok code => rfl
  | error error => rfl

/-- A unit that was converted is found again by its recorded path. -/
theorem filterMap_output? (arguments : Arguments)
    (files : List (String × Except LoadFailure SourceUnit)) :
    let units := loadedUnits arguments files
    let converted := conversions arguments.options units
    (converted.map fun conversion => (conversion.loaded.unit.path, conversion.code)).filterMap
        (fun (path, code) => RunPlan.output? arguments units path code) =
      converted.map fun conversion => (conversion.output arguments, conversion.code) := by
  intro units converted
  rw [filterMap_map, ← filterMap_eq_map]
  refine filterMap_congr fun conversion hconversion => ?_
  have hnodup := (nodup_loadEvents arguments.pathReplacement [] files).1
  have hloaded := (conversions_sublist _ _).subset (mem_map_of_mem hconversion)
  have hfound := find?_path hnodup hloaded
  exact congrArg (Option.map _) hfound

/-- Below a directory, units with plain paths and one extension have different places. -/
theorem nodup_places {arguments : Arguments} {files : List (String × Except LoadFailure SourceUnit)}
    {final : Disk} {directory extension : String} :
    let converted := conversions arguments.options (loadedUnits arguments files)
    HoldsLast final (·.output arguments) (·.code) converted → arguments.outDir = some directory →
      (∀ conversion ∈ converted, Path.IsPlain extension conversion.loaded.unit.path) →
      (converted.map fun conversion => final.resolve? (conversion.output arguments)).Nodup := by
  intro converted hheld hdirectory hplain
  have hrecorded : (converted.map (·.loaded.unit.path)).Nodup := by
    have hsublist :=
      (conversions_sublist arguments.options (loadedUnits arguments files)).map (·.unit.path)
    rw [map_map] at hsublist
    exact hsublist.nodup (nodup_loadEvents arguments.pathReplacement [] files).1
  refine Nodup.map_on (fun first hfirst second hsecond hsame => ?_) (Nodup.of_map _ hrecorded)
  have houtput : ∀ conversion : Conversion, conversion.output arguments =
      outputPath conversion.loaded.unit.path conversion.loaded.source (some directory) :=
    fun conversion => by rw [Conversion.output, hdirectory]
  obtain ⟨place, hplace : final.resolve? (first.output arguments) = some place⟩ :=
    hheld.exists_place hfirst
  rw [houtput] at hplace
  rw [houtput, houtput] at hsame
  refine inj_on_of_nodup_map hrecorded hfirst hsecond ?_
  exact eq_of_same_place (hplain first hfirst) (hplain second hsecond) hplace (hsame ▸ hplace)

/-- The plan for files that were read: all units that can be converted are written. -/
theorem plan_ofFiles {arguments : Arguments} (hfiles : arguments.stdout = false)
    (files : List (String × Except LoadFailure SourceUnit)) :
    let converted := conversions arguments.options (loadedUnits arguments files)
    let plan := RunPlan.ofFiles arguments files
    plan.outputs =
      converted.map (fun conversion => (conversion.output arguments, conversion.code)) ∧
      plan.outcome.convertedCount = converted.length := by
  have hunits : (loadEvents arguments.pathReplacement [] files).filterMap LoadEvent.unit? =
      loadedUnits arguments files := rfl
  have houtputs := filterMap_output? arguments files
  have hconverted := converted_ofResults arguments.options (loadedUnits arguments files)
  intro converted plan
  unfold plan RunPlan.ofFiles convertBatch
  dsimp only
  rw [hunits]
  by_cases hempty : ((loadedUnits arguments files).map (·.unit)).isEmpty
  · have hnone : loadedUnits arguments files = [] := map_eq_nil_iff.mp (isEmpty_iff.mp hempty)
    rw [if_pos hempty]
    unfold converted
    rw [hnone]
    exact ⟨rfl, rfl⟩
  · rw [if_neg hempty]
    dsimp only [RunPlan.ofBatch]
    rw [hfiles, hconverted]
    exact ⟨houtputs, length_map _⟩

/-! ## Whole runs -/

/-- A run looks for files, loads them, and then writes what is planned. -/
theorem run_succeeds_iff {arguments : Arguments} {disk final : Disk} {outcome : RunOutcome} :
    Succeeds (run Disk.fileSystem arguments) disk outcome final ↔
      ∃ paths emittedFiles,
        Succeeds (discoverUnits Disk.fileSystem arguments.inputs) disk paths disk ∧
        let plan :=
          RunPlan.ofFiles arguments (paths.map fun path => (path, loadUnit (disk.readText? path)))
        Succeeds (plan.outputs.mapM (writeOutput Disk.fileSystem)) disk emittedFiles final ∧
          outcome = { plan.outcome with emittedFiles } := by
  unfold run
  constructor
  · intro h
    obtain ⟨paths, _, hpaths, hloading⟩ := h.bind
    have hsame := discoverUnits_same hpaths
    rw [hsame] at hpaths hloading
    obtain ⟨_, _, hfiles, hwriting⟩ := hloading.bind
    replace hfiles := hfiles.lift
    rw [loadFiles_eq] at hfiles
    cases hfiles
    obtain ⟨emittedFiles, _, hwritten, hresult⟩ := hwriting.bind
    obtain ⟨rfl, rfl⟩ := hresult.pure
    exact ⟨paths, emittedFiles, hpaths, hwritten, rfl⟩
  · rintro ⟨paths, emittedFiles, hpaths, hwritten, rfl⟩
    have hloaded := Succeeds.lift_iff.mpr (loadFiles_eq disk paths)
    refine Succeeds.bind_iff.mpr ⟨paths, disk, hpaths, Succeeds.bind_iff.mpr ⟨_, disk, hloaded, ?_⟩⟩
    exact Succeeds.bind_iff.mpr ⟨emittedFiles, final, hwritten, rfl⟩

/-- After a run, a file holds the code of the last unit that was written to its place. All units
that could be converted were written, in order. If no two of them lead to one place, every unit has
a file of its own with its code in it; and below an output directory no two do, if the recorded
paths are plain and have one extension. -/
theorem files_hold_the_last_code {arguments : Arguments} {disk final : Disk} {outcome : RunOutcome}
    (hfiles : arguments.stdout = false)
    (h : (run Disk.fileSystem arguments).run disk = (.ok outcome, final)) :
    ∃ paths, (discoverUnits Disk.fileSystem arguments.inputs).run disk = (.ok paths, disk) ∧
      let files := paths.map fun path => (path, loadUnit (disk.readText? path))
      let converted := conversions arguments.options (loadedUnits arguments files)
      outcome.emittedFiles = converted.map (·.output arguments) ∧ outcome.convertedCount =
        converted.length ∧
        HoldsLast final (·.output arguments) (·.code) converted ∧
        ((converted.map fun conversion => final.resolve? (conversion.output arguments)).Nodup ∨
            (∃ directory extension, arguments.outDir = some directory ∧
              ∀ conversion ∈ converted, Path.IsPlain extension conversion.loaded.unit.path) →
          outcome.emittedFiles.Nodup ∧ ∀ conversion ∈ converted,
              final.readText? (conversion.output arguments) = some conversion.code) := by
  obtain ⟨paths, _, hpaths, hwritten, rfl⟩ := run_succeeds_iff.mp h
  refine ⟨paths, hpaths, ?_⟩
  intro files converted
  obtain ⟨houtputs, hconverted⟩ := plan_ofFiles hfiles files
  rw [houtputs] at hwritten
  obtain ⟨hemitted, hlast⟩ := holdsLast_of_writes hwritten
  refine ⟨hemitted, hconverted, hlast, fun happart => ?_⟩
  rw [hemitted]
  obtain hnodup | ⟨_, _, hdirectory, hplain⟩ := happart
  · exact hlast.own hnodup
  · exact hlast.own (nodup_places hlast hdirectory hplain)

/-! ## Two units with one name -/

/-- The text of a unit with one class, recorded in the directory `x`. -/
def classUnitText : String :=
  "\x7b\"path\":\"x/a.vb\",\"tree\":\x7b\"id\":0,\"members\":[\x7b\"id\":1,\"kind\":\"Type\"," ++
    "\"block\":\"Class\",\"identifier\":\"A\"\x7d]\x7d\x7d"

/-- The text of a unit with nothing in it, recorded under the same name in the directory `y`. -/
def emptyUnitText : String :=
  "\x7b\"path\":\"y/a.vb\",\"tree\":\x7b\"id\":0\x7d\x7d"

def unitsOfOneName : List (String × Except LoadFailure SourceUnit) :=
  [("1", .ok ⟨"x/a.vb", ⟨0, [], [], [⟨1, .type .class [] [] "A" [] [] [] [], {}⟩]⟩, {}⟩),
    ("2", .ok ⟨"y/a.vb", ⟨0, [], [], []⟩, {}⟩)]

/-- A disk with the files of both units and others behind them. -/
def diskWithUnits (others : List (String × FileTree)) : Disk :=
  ⟨.directory (("1", .file classUnitText.toUTF8) :: ("2", .file emptyUnitText.toUTF8) :: others),
    []⟩

set_option maxRecDepth 20000 in
theorem ofText?_classUnitText : SourceUnit.ofText? classUnitText =
    some ⟨"x/a.vb", ⟨0, [], [], [⟨1, .type .class [] [] "A" [] [] [] [], {}⟩]⟩, {}⟩ := by
  cbv

set_option maxRecDepth 20000 in
theorem load_unitsOfOneName :
    ["1", "2"].map (fun path => (path, loadUnit ((diskWithUnits []).readText? path))) =
      unitsOfOneName := by
  have hfirst : (diskWithUnits []).readText? "1" = some classUnitText :=
    Disk.readText?_of_file (by rfl) (by rfl)
  have hsecond : (diskWithUnits []).readText? "2" = some emptyUnitText :=
    Disk.readText?_of_file (by rfl) (by rfl)
  have hempty : SourceUnit.ofText? emptyUnitText = some ⟨"y/a.vb", ⟨0, [], [], []⟩, {}⟩ := by cbv
  rw [map_cons, map_cons, map_nil, hfirst, hsecond, loadUnit, loadUnit,
    ofText?_classUnitText, hempty, unitsOfOneName]

/-- Both units are found. -/
theorem discover_unitsOfOneName :
    (discoverUnits Disk.fileSystem ["1", "2"]).run (diskWithUnits []) =
    (.ok ["1", "2"], diskWithUnits []) := by
  rfl

/-- Below an output directory the two units have different places. -/
theorem units_of_one_name_below_a_directory :
    ∃ outcome final, (run Disk.fileSystem { inputs := ["1", "2"], outDir := some "out" }).run
        (diskWithUnits []) = (.ok outcome, final) ∧
      outcome.emittedFiles = ["out/x/a.cs", "out/y/a.cs"] ∧ outcome.emittedFiles.Nodup ∧
      final.readText? "out/x/a.cs" = some "class A\n\x7b\n\x7d\n" ∧
      final.readText? "out/y/a.cs" = some "" := by
  have hplan : RunPlan.ofFiles { inputs := ["1", "2"], outDir := some "out" } unitsOfOneName =
      ⟨{ convertedCount := 2, unitCount := 2 }, [("out/x/a.cs", "class A\n\x7b\n\x7d\n"),
        ("out/y/a.cs", "")]⟩ := by rfl
  have hrun : (run Disk.fileSystem { inputs := ["1", "2"], outDir := some "out" }).run
    (diskWithUnits []) =
      (.ok { emittedFiles := ["out/x/a.cs", "out/y/a.cs"], convertedCount := 2, unitCount := 2 },
        diskWithUnits
          [("out", .directory [ ("x", .directory [("a.cs", .file "class A\n\x7b\n\x7d\n".toUTF8)]),
          ("y", .directory [("a.cs", .file "".toUTF8)])])]) := by
    refine run_succeeds_iff.mpr ⟨_, ["out/x/a.cs", "out/y/a.cs"], discover_unitsOfOneName, ?_⟩
    rw [load_unitsOfOneName, hplan]
    exact ⟨by rfl, rfl⟩
  obtain ⟨_, hpaths, -, -, -, hown⟩ := files_hold_the_last_code rfl hrun
  rw [discover_unitsOfOneName] at hpaths
  cases hpaths
  have hconverted : conversions ({ inputs := ["1", "2"], outDir := some "out" } : Arguments).options
      (loadedUnits { inputs := ["1", "2"], outDir := some "out" } unitsOfOneName) =
        [⟨⟨"1", ⟨"x/a.vb", ⟨0, [], [], [⟨1, .type .class [] [] "A" [] [] [] [], {}⟩]⟩, {}⟩⟩,
          "class A\n\x7b\n\x7d\n"⟩,
          ⟨⟨"2", ⟨"y/a.vb", ⟨0, [], [], []⟩, {}⟩⟩, ""⟩] := by rfl
  rw [load_unitsOfOneName, hconverted] at hown
  have hplain : ∀ name, Path.IsName name → Path.IsPlain "vb" (name ++ "/a.vb") := by
    intro name hname
    refine ⟨[name], "a", forall_mem_singleton.mpr hname, by decide, by decide, by decide, ?_⟩
    rw [singleton_append, String.intercalate_cons_cons, String.intercalate_singleton,
      String.append_assoc]
    rfl
  obtain ⟨hnodup, htexts⟩ := hown (.inr ⟨"out", "vb", rfl, forall_mem_cons.mpr
    ⟨hplain "x" (by decide), forall_mem_singleton.mpr (hplain "y" (by decide))⟩⟩)
  simp only [forall_mem_cons] at htexts
  exact ⟨_, _, hrun, rfl, hnodup, htexts.1, htexts.2.1⟩

/-- Beside the files that they came from the two units have one place, and the code of the first is
lost. -/
theorem units_of_one_name_in_one_file :
    ∃ outcome final, (run Disk.fileSystem { inputs := ["1", "2"] }).run (diskWithUnits []) =
      (.ok outcome, final) ∧
      outcome.convertedCount = 2 ∧ outcome.emittedFiles = ["a.cs", "a.cs"] ∧
      (conversions {} (loadedUnits { inputs := ["1", "2"] } unitsOfOneName)).map (·.code) =
        ["class A\n\x7b\n\x7d\n", ""] ∧
      final.readText? "a.cs" = some "" := by
  have hplan : RunPlan.ofFiles { inputs := ["1", "2"] } unitsOfOneName =
    ⟨{ convertedCount := 2, unitCount := 2 },
        [("a.cs", "class A\n\x7b\n\x7d\n"), ("a.cs", "")]⟩ := by rfl
  have hrun : (run Disk.fileSystem { inputs := ["1", "2"] }).run (diskWithUnits []) =
      (.ok { emittedFiles := ["a.cs", "a.cs"], convertedCount := 2, unitCount := 2 },
        diskWithUnits [("a.cs", .file "".toUTF8)]) := by
    refine run_succeeds_iff.mpr ⟨_, ["a.cs", "a.cs"], discover_unitsOfOneName, ?_⟩
    rw [load_unitsOfOneName, hplan]
    exact ⟨by rfl, rfl⟩
  exact ⟨_, _, hrun, rfl, rfl, by rfl, Disk.readText?_of_file (by rfl) (by rfl)⟩

end Sharpen

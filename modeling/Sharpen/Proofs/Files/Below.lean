import Sharpen.Proofs.Files.Paths

/-!
# Outputs below a directory

The components of a path are told by its segments: the first one says more than the others
(`Path.componentsOf`). With an output directory, the names of the recorded path come behind the
components of the directory, the last of them with another extension (`components_outputPath`). So
an output stands below the directory, unless no name is left of the recorded path. Then the last
step, which changes the extension, takes hold of the name of the directory itself, and the output
stands beside it (`components_outputPath_of_no_names`).

A name such as `..a` loses its end together with its extension: what remains is `..`. That leads
back to where the name before it stands, which is a directory and nothing that could be written.
-/

namespace Sharpen

open List

variable {component : Component} {inner : List String} {extension name path segment : String}

namespace Path

/-! ## Components by segments -/

/-- The component that the first segment stands for, if others follow it. -/
def firstComponent? (segment : String) : Option Component :=
  if segment = "" then some .root
  else if segment = "." then some .current
  else innerComponent? segment

/-- The components that segments stand for, if others follow them. -/
def componentsOf : List String → List Component
  | [] => []
  | first :: rest => (firstComponent? first).toList ++ rest.filterMap innerComponent?

theorem eq_of_innerComponent? (h : innerComponent? segment = some (.normal name)) :
    segment = name ∧ segment ≠ ".." := by
  obtain ⟨hempty, hcurrent⟩ := ne_of_innerComponent? h
  rw [innerComponent?, if_neg (not_or.mpr ⟨hempty, hcurrent⟩)] at h
  split at h
  · cases h
  · next hparent =>
    cases h
    exact ⟨rfl, hparent⟩

theorem innerComponent?_of_first (h : firstComponent? segment = some (.normal name)) :
    innerComponent? segment = some (.normal name) := by
  rw [firstComponent?] at h
  split at h
  · cases h
  split at h
  · cases h
  · exact h

/-- Only the empty path has a first segment that stands for nothing. -/
theorem components_of_segments {first : String} {rest : List String}
    (hpath : segments path = first :: rest) (hne : path ≠ "") :
    components path = componentsOf (first :: rest) := by
  rw [components, componentsOf, firstComponent?, steps, hpath]
  split
  · next heq => cases heq
  · next heq =>
    rw [← intercalate_segments path, hpath, heq] at hne
    exact absurd rfl hne
  · next heq =>
    obtain ⟨rfl, rfl⟩ := List.cons.inj heq
    rw [map_cons, map_component_innerSteps, if_pos rfl]
    rfl
  · next heq =>
    obtain ⟨rfl, rfl⟩ := List.cons.inj heq
    rw [map_cons, map_component_innerSteps, if_neg (by decide), if_pos rfl]
    rfl
  · next hempty hcurrent =>
    rw [map_component_innerSteps, if_neg fun h => hempty rest (by rw [h]), if_neg fun h =>
      hcurrent rest (by rw [h])]
    cases hsegment : innerComponent? first with
    | none => rw [filterMap_cons_none hsegment]; rfl
    | some component => rw [filterMap_cons_some hsegment]; rfl

theorem componentsOf_append (h : innerComponent? segment = some component)
    (inner behind : List String) :
    componentsOf (inner ++ segment :: behind) =
      componentsOf inner ++ component :: behind.filterMap innerComponent? := by
  cases inner with
  | nil =>
    obtain ⟨hempty, hcurrent⟩ := ne_of_innerComponent? h
    rw [nil_append, componentsOf, componentsOf, firstComponent?, if_neg hempty, if_neg hcurrent, h]
    rfl
  | cons first rest =>
    rw [cons_append, componentsOf, componentsOf, filterMap_append, filterMap_cons_some h,
      append_assoc]

theorem componentsOf_names {names : List String} (hnames : ∀ name ∈ names, IsName name)
    (inner : List String) :
    componentsOf (inner ++ names) = componentsOf inner ++ names.map .normal := by
  cases names with
  | nil => rw [append_nil, map_nil, append_nil]
  | cons name rest =>
    obtain ⟨hname, hrest⟩ := forall_mem_cons.mp hnames
    rw [componentsOf_append (innerComponent?_of_name hname), map_cons,
      filterMap_innerComponent? hrest]

/-- The components of a path whose last segments say something. -/
theorem components_of_append {behind : List String} (h : innerComponent? segment = some component)
    (hpath : segments path = inner ++ segment :: behind) :
    components path = componentsOf inner ++ component :: behind.filterMap innerComponent? := by
  obtain ⟨_, _, hfirst⟩ := exists_cons_of_ne_nil
    (append_ne_nil_of_right_ne_nil inner (cons_ne_nil segment behind))
  have hne : path ≠ "" := by
    rintro rfl
    have hempty : [""] = inner ++ segment :: behind := hpath
    obtain ⟨-, h'⟩ | ⟨-, h'⟩ := append_eq_singleton_iff.mp hempty.symm
    · exact (ne_of_innerComponent? h).1 (List.cons.inj h').1
    · cases h'
  rw [components_of_segments (hpath.trans hfirst) hne, ← hfirst, componentsOf_append h]

/-- A slash at the end adds nothing. -/
theorem components_of_slash (hpath : segments path = inner ++ [""]) :
    components path = componentsOf inner := by
  cases inner with
  | nil =>
    have hempty : path = "" := by
      rw [← intercalate_segments path, hpath]
      rfl
    rw [hempty]
    rfl
  | cons first rest =>
    have hne : path ≠ "" := by
      rintro rfl
      have hempty : [""] = first :: (rest ++ [""]) := hpath
      simp at hempty
    rw [cons_append] at hpath
    rw [components_of_segments hpath hne, componentsOf, componentsOf, filterMap_append]
    exact congrArg _ (append_nil _)

theorem segments_opening_self (directory : String) :
    segments (opening directory) = inside directory ++ [""] := by
  have h := segments_opening directory ""
  rwa [String.append_empty] at h

/-- What stands before a name in a directory are the components of the directory. -/
theorem componentsOf_inside (directory : String) :
    componentsOf (inside directory) = components directory := by
  have hopening := segments_opening_self directory
  rw [opening] at hopening
  split at hopening
  · exact (components_of_slash hopening).symm
  · next hslash =>
    have hempty : directory ≠ "" := fun h => hslash (by rw [h]; rfl)
    have hdirectory : segments (directory ++ "/" ++ "") = segments directory ++ [""] :=
      segments_append directory ""
    rw [String.append_empty, hopening] at hdirectory
    obtain ⟨_, _, hfirst⟩ := exists_segments directory
    rw [append_cancel_right hdirectory, components_of_segments hfirst hempty, hfirst]

/-- The names in a path are names. -/
theorem isName_of_mem_components (h : .normal name ∈ components path) : IsName name := by
  obtain ⟨first, _, hpath⟩ := exists_segments path
  have hne : path ≠ "" := by
    rintro rfl
    cases h
  have hsegment : ∃ segment ∈ segments path, innerComponent? segment = some (.normal name) := by
    rw [components_of_segments hpath hne, componentsOf, mem_append, Option.mem_toList,
      mem_filterMap] at h
    rw [hpath]
    obtain h | ⟨segment, hsegment, h⟩ := h
    · exact ⟨first, mem_cons_self .., innerComponent?_of_first h⟩
    · exact ⟨segment, mem_cons_of_mem _ hsegment, h⟩
  obtain ⟨_, hsegment, hname⟩ := hsegment
  obtain ⟨rfl, hparent⟩ := eq_of_innerComponent? hname
  obtain ⟨hempty, hcurrent⟩ := ne_of_innerComponent? hname
  exact ⟨hempty, hcurrent, hparent, not_mem_of_mem_segments hsegment⟩

/-! ## The last name -/

theorem getLast?_of_fileName? (h : fileName? path = some name) :
    (components path).getLast? = some (.normal name) := by
  obtain ⟨component, hlast, hname⟩ := Option.bind_eq_some_iff.mp h
  cases component with
  | normal => rw [hlast, Option.some.inj hname]
  | root | current | parent => cases hname

/-- Where the last component of a path stands among its segments. -/
theorem exists_last_segment (h : fileName? path = some name) :
    ∃ inner behind, segments path = inner ++ name :: behind ∧ ∀ later ∈ behind,
      innerComponent? later = none := by
  have hlast := getLast?_of_fileName? h
  have hne : path ≠ "" := by
    rintro rfl
    cases hlast
  obtain ⟨first, rest, hpath⟩ := exists_segments path
  have hsegment : ∃ inner segment behind, first :: rest = inner ++ segment :: behind ∧
      innerComponent? segment = some (.normal name) ∧ behind.filterMap innerComponent? = [] := by
    rw [components_of_segments hpath hne, componentsOf] at hlast
    cases hrest : (rest.filterMap innerComponent?).getLast? with
    | none =>
      rw [List.getLast?_eq_none_iff] at hrest
      rw [hrest, append_nil] at hlast
      have hfirst : firstComponent? first = some (.normal name) :=
        Option.mem_toList.mp (mem_of_getLast? hlast)
      exact ⟨[], first, rest, rfl, innerComponent?_of_first hfirst, hrest⟩
    | some last =>
      rw [List.getLast?_append, hrest, Option.some_or] at hlast
      obtain ⟨_, hearlier⟩ := List.getLast?_eq_some_iff.mp (hrest.trans hlast)
      obtain ⟨before, _, rfl, -, hafter⟩ := filterMap_eq_append_iff.mp hearlier
      obtain ⟨between, segment, behind, rfl, -, hsegment, hbehind⟩ :=
        filterMap_eq_cons_iff.mp hafter
      exact ⟨first :: (before ++ between), segment, behind, by simp, hsegment, hbehind⟩
  obtain ⟨inner, _, behind, hsegments, hsegment, hbehind⟩ := hsegment
  obtain ⟨rfl, -⟩ := eq_of_innerComponent? hsegment
  exact ⟨inner, behind, hpath.trans hsegments, filterMap_eq_nil_iff.mp hbehind⟩

/-- A name is divided at its last dot, unless it starts with its only one. -/
theorem splitExtension_cases (name : String) :
    (∃ stem extension, stem ≠ "" ∧ '.' ∉ extension.toList ∧ name = stem ++ "." ++ extension ∧
      splitExtension name = (stem, some extension)) ∨ splitExtension name = (name, none) := by
  have hname : name.toList.reverse.takeWhile (· ≠ '.') ++ name.toList.reverse.dropWhile (· ≠ '.') =
      name.toList.reverse := takeWhile_append_dropWhile
  rw [splitExtension]
  split
  · exact .inr rfl
  · exact .inr rfl
  · next dot _ hne hdrop =>
    rw [hdrop] at hname
    have hdot : dot = '.' := by
      have h := List.head?_dropWhile_not (fun c => decide (c ≠ '.')) name.toList.reverse
      rw [hdrop] at h
      simpa using h
    refine .inl ⟨_, _, ?_, ?_, ?_, rfl⟩
    · intro hempty
      exact hne (by simpa using hempty)
    · rw [String.toList_ofList, mem_reverse]
      intro hmem
      have h := all_eq_true.mp all_takeWhile '.' hmem
      simp at h
    · rw [← String.toList_inj, ← reverse_inj]
      simpa [hdot] using hname.symm

/-- A last name with another extension. The dot of the old extension stays until the new one is set,
and behind another dot it leaves no name. -/
def renamed (name extension : String) : Component :=
  match splitExtension name with
  | (".", some _) => .parent
  | (stem, _) => .normal (stem ++ "." ++ extension)

theorem renamed_of_stem {stem : String} {old : Option String}
    (hsplit : splitExtension name = (stem, old)) (hstem : stem ≠ ".") :
    renamed name extension = .normal (stem ++ "." ++ extension) := by
  rw [renamed, hsplit]
  split
  · next heq => exact absurd (Prod.mk.inj heq).1 hstem
  · next heq => rw [(Prod.mk.inj heq).1]

theorem segments_withExtension (hname : IsName name) (hslash : '/' ∉ extension.toList)
    (hpath : segments path = inner ++ [name]) :
    segments (withExtension path extension) = inner ++ [(renamed name extension).text] := by
  have hlast := getLast?_steps (innerComponent?_of_name hname) (forall_mem_nil _) hpath
  obtain ⟨stem, old, hstem, hdot, rfl, hsplit⟩ | hsplit := splitExtension_cases name
  · have hold : '/' ∉ old.toList := fun hold => hname.2.2.2 (by simp [hold])
    by_cases hcurrent : stem = "."
    · subst hcurrent
      have hcut : cutExtension path = "/".intercalate (inner ++ [".."]) := by
        have hwhole : String.join (inner.map (· ++ "/")) ++ ("." ++ "." ++ old) = path := by
          rw [← intercalate_concat, ← hpath, intercalate_segments]
        rw [cutExtension, hlast]
        dsimp only
        rw [hsplit]
        dsimp only
        rw [if_pos hwhole, intercalate_concat, String.append_assoc]
        rfl
      have hparent : segments ("/".intercalate (inner ++ [".."])) = inner ++ [".."] := 
        segments_intercalate_concat hpath (by decide)
      rw [withExtension, hcut, getLast?_steps rfl (forall_mem_nil _) hparent, renamed, hsplit]
      exact hparent
    · have hstem : IsStem stem := ⟨hstem, hcurrent, fun hstem => hname.2.2.2 (by simp [hstem])⟩
      rw [withExtension_of_name hstem hold hdot hpath, renamed_of_stem hsplit hcurrent]
      exact segments_intercalate_concat hpath (hstem.isName hslash).2.2.2
  · have hstem : IsStem name := ⟨hname.1, hname.2.1, hname.2.2.2⟩
    have hresult : withExtension path extension =
      "/".intercalate (inner ++ [name ++ "." ++ extension]) := by
      have hcut : cutExtension path = path := by
        rw [cutExtension, hlast]
        dsimp only
        rw [hsplit]
      rw [withExtension, hcut, hlast]
      dsimp only
      rw [hsplit, intercalate_concat]
      simp only [String.append_assoc]
    rw [hresult, renamed_of_stem hsplit hname.2.1]
    exact segments_intercalate_concat hpath (hstem.isName hslash).2.2.2

theorem innerComponent?_renamed (hname : IsName name) (hslash : '/' ∉ extension.toList) :
    innerComponent? (renamed name extension).text = some (renamed name extension) := by
  obtain ⟨hempty, hcurrent, -, hnoSlash⟩ := hname
  obtain ⟨stem, _, hstem, -, rfl, hsplit⟩ | hsplit := splitExtension_cases name
  · by_cases hcurrent : stem = "."
    · rw [renamed, hsplit, hcurrent]
      rfl
    · have hstem : IsStem stem := ⟨hstem, hcurrent, fun hstem => hnoSlash (by simp [hstem])⟩
      rw [renamed_of_stem hsplit hcurrent]
      exact innerComponent?_of_name (hstem.isName hslash)
  · have hstem : IsStem name := ⟨hempty, hcurrent, hnoSlash⟩
    rw [renamed_of_stem hsplit hcurrent]
    exact innerComponent?_of_name (hstem.isName hslash)

theorem isName_append {stem : String} (hstem : stem ≠ "") (hnoSlash : '/' ∉ stem.toList)
    (hextension : extension ≠ "") (hslash : '/' ∉ extension.toList) :
    IsName (stem ++ "." ++ extension) := by
  have hlong : 2 < (stem ++ "." ++ extension).toList.length := by
    have hstem := length_pos_iff.mpr (mt String.toList_eq_nil_iff.mp hstem)
    have hextension := length_pos_iff.mpr (mt String.toList_eq_nil_iff.mp hextension)
    simp only [String.toList_append, length_append]
    have hdot : ".".toList.length = 1 := rfl
    omega
  refine ⟨?_, ?_, ?_, by simp [hnoSlash, hslash]⟩
  all_goals
    intro h
    rw [h] at hlong
    exact absurd hlong (by decide)

/-- Behind a slash there is no extension to cut, so the last name gets another one in any case. -/
theorem components_withExtension_of_slash {before : List String}
    (hname : fileName? path = some name) (hextension : extension ≠ "")
    (hslash : '/' ∉ extension.toList) (hpath : segments path = before ++ [""]) :
    components (withExtension path extension) =
      (components path).dropLast ++ [.normal ((splitExtension name).1 ++ "." ++ extension)] := by
  obtain ⟨hempty, hcurrent, hparent, hnoSlash⟩ : IsName name :=
    isName_of_mem_components (mem_of_getLast? (getLast?_of_fileName? hname))
  have hcomponent := innerComponent?_of_name ⟨hempty, hcurrent, hparent, hnoSlash⟩
  obtain ⟨inner, _, hsegments, hbehind⟩ := exists_last_segment hname
  have hlast := getLast?_steps hcomponent hbehind hsegments
  have hcut : cutExtension path = path := by
    have hends : String.join (inner.map (· ++ "/")) ++ name ≠ path := by
      rintro rfl
      rw [← intercalate_concat, segments_intercalate_concat hsegments hnoSlash] at hpath
      exact hempty (List.cons.inj (append_inj' hpath rfl).2).1
    rw [cutExtension, hlast]
    dsimp only
    split
    · exact if_neg hends
    · rfl
  have hresult : withExtension path extension =
      "/".intercalate (inner ++ [(splitExtension name).1 ++ "." ++ extension]) := by
    rw [withExtension, hcut, hlast, intercalate_concat]
    simp only [String.append_assoc]
  have hrenamed : IsName ((splitExtension name).1 ++ "." ++ extension) := by
    obtain ⟨_, _, hstem, -, rfl, hsplit⟩ | hsplit := splitExtension_cases name
    · rw [hsplit]
      exact isName_append hstem (fun hstem => hnoSlash (by simp [hstem])) hextension hslash
    · rw [hsplit]
      exact isName_append hempty hnoSlash hextension hslash
  rw [hresult, components_of_append (innerComponent?_of_name hrenamed) 
      (segments_intercalate_concat hsegments hrenamed.2.2.2),
    components_of_append hcomponent hsegments, filterMap_eq_nil_iff.mpr hbehind, dropLast_concat]
  rfl

end Path

/-! ## Outputs -/

def Path.names (path : String) : List String :=
  (Path.components path).filterMap Component.name?

theorem Path.isName_of_mem_names (h : name ∈ names path) : IsName name := by
  obtain ⟨component, hcomponent, hname⟩ := mem_filterMap.mp h
  cases component with
  | normal =>
    obtain rfl := Option.some.inj hname
    exact isName_of_mem_components hcomponent
  | root | current | parent => cases hname

/-- Below a directory come the names of the recorded path, the last one with another extension. -/
theorem components_outputPath {recorded last : String}
    (hrecorded : Path.names recorded = inner ++ [last]) (source directory : String) :
    Path.components (outputPath recorded source (some directory)) =
      Path.components directory ++ (inner.map .normal ++ [Path.renamed last codeExtension]) := by
  have hnames : ∀ name ∈ inner ++ [last], Path.IsName name := fun name hname =>
    Path.isName_of_mem_names (hrecorded ▸ hname)
  have hne : inner ++ [last] ≠ [] := by simp
  have hrelative : relativePath recorded = "/".intercalate (inner ++ [last]) := by
    have hjoined := Path.foldl_join hne hnames ""
    rw [← hrecorded] at hjoined ⊢
    exact hjoined.trans String.empty_append
  have htarget : Path.segments (Path.join directory (relativePath recorded)) =
      (Path.inside directory ++ inner) ++ [last] := by
    rw [hrelative, Path.segments_join hne hnames, append_assoc]
  obtain ⟨hinner, hlast⟩ := forall_mem_append.mp hnames
  have hlast := forall_mem_singleton.mp hlast
  rw [outputPath, Path.components_of_append (Path.innerComponent?_renamed hlast (by decide))
      (Path.segments_withExtension hlast (by decide) htarget),
    Path.componentsOf_names hinner, Path.componentsOf_inside, append_assoc]
  rfl

/-- Without any names the output stands beside the directory, under the name of the directory. -/
theorem components_outputPath_of_no_names {recorded directory : String}
    (hrecorded : Path.names recorded = []) (hdirectory : Path.fileName? directory = some name)
    (source : String) :
    Path.components (outputPath recorded source (some directory)) =
      (Path.components directory).dropLast ++
        [.normal ((Path.splitExtension name).1 ++ "." ++ codeExtension)] := by
  have htarget : Path.join directory (relativePath recorded) = Path.opening directory := by
    have hrelative : relativePath recorded = "" := congrArg (List.foldl Path.join "") hrecorded
    rw [hrelative, Path.join_of_relative rfl, String.append_empty]
  have hcomponents : Path.components (Path.opening directory) = Path.components directory := by
    rw [Path.components_of_slash (Path.segments_opening_self directory), Path.componentsOf_inside]
  have hname : Path.fileName? (Path.opening directory) = some name := by
    rw [Path.fileName?, hcomponents]
    exact hdirectory
  rw [outputPath, htarget, Path.components_withExtension_of_slash hname (by decide) (by decide)
    (Path.segments_opening_self directory), hcomponents]

/-- **Outputs stand below the output directory** as long as a name is left of the recorded path,
whatever it was replaced by: behind the components of the directory, which ends in a name, there are
others. With no name left, the output stands beside the directory. -/
theorem outputs_stay_below_unless_nameless (path : String) (replacement : Option (String × String))
    (source directory name : String) (hdirectory : Path.fileName? directory = some name) :
    let recorded := replacedPath path replacement
    let output := Path.components (outputPath recorded source (some directory))
    ((∃ more, more ≠ [] ∧ output = Path.components directory ++ more) ↔
      ∃ inner, .normal inner ∈ Path.components recorded) ∧
    ((¬ ∃ inner, .normal inner ∈ Path.components recorded) → output =
      (Path.components directory).dropLast ++
        [.normal ((Path.splitExtension name).1 ++ "." ++ codeExtension)]) := by
  intro recorded output
  have hnames : (∃ inner, .normal inner ∈ Path.components recorded) ↔ Path.names recorded ≠ [] := by
    constructor
    · rintro ⟨_, hinner⟩
      exact ne_nil_of_mem (mem_filterMap.mpr ⟨_, hinner, rfl⟩)
    · intro hne
      obtain ⟨_, hinner⟩ := exists_mem_of_ne_nil _ hne
      obtain ⟨component, hcomponent, hname⟩ := mem_filterMap.mp hinner
      cases component with
      | normal other => exact ⟨other, hcomponent⟩
      | root | current | parent => cases hname
  have hbeside : Path.names recorded = [] → output = (Path.components directory).dropLast ++
      [.normal ((Path.splitExtension name).1 ++ "." ++ codeExtension)] := fun hnone =>
    components_outputPath_of_no_names hnone hdirectory source
  rw [hnames, Classical.not_not]
  refine ⟨⟨?_, fun hne => ?_⟩, hbeside⟩
  · rintro ⟨_, hmore, houtput⟩ hnone
    have hlength := congrArg List.length (houtput.symm.trans (hbeside hnone))
    have hpos : 0 < (Path.components directory).length :=
      length_pos_of_mem (mem_of_getLast? (Path.getLast?_of_fileName? hdirectory))
    have hmore := length_pos_iff.mpr hmore
    simp only [length_append, length_dropLast, length_singleton] at hlength
    omega
  · have hsplit := dropLast_concat_getLast hne
    exact ⟨_, by simp, components_outputPath hsplit.symm source directory⟩

/-- A recorded path that leads up and down again keeps its names below the directory. -/
theorem output_of_an_absolute_path :
    Path.fileName? "out/new." = some "new." ∧
      ∃ more, more ≠ [] ∧
        Path.components (outputPath (replacedPath "/src/../x/..a" (some ("x", "y"))) "in/a.vbjson"
        (some "out/new.")) = Path.components "out/new." ++ more :=
  ⟨by decide,
    (outputs_stay_below_unless_nameless "/src/../x/..a" (some ("x", "y")) "in/a.vbjson"
      "out/new." "new."
    (by decide)).1.mpr ⟨"src", by decide⟩⟩

/-- A recorded path without names: the output is beside the directory. -/
theorem nameless_output_leaves_the_directory :
    Path.components (outputPath "" "in/a.vbjson" (some "out")) = [.normal "out.cs"] ∧
      ¬ ∃ more, more ≠ [] ∧ Path.components (outputPath "" "in/a.vbjson" (some "out")) =
        Path.components "out" ++ more := by
  have houtput : Path.components (outputPath "" "in/a.vbjson" (some "out")) =
    [.normal "out.cs"] := by decide
  refine ⟨houtput, ?_⟩
  rintro ⟨_, -, hmore⟩
  rw [houtput] at hmore
  exact absurd (List.cons.inj hmore).1 (by decide)

end Sharpen

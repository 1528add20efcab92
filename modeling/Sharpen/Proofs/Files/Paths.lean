import Sharpen.Command.FileTree

/-!
# Plain paths

A path is put together again from its segments (`Path.intercalate_segments`), so what happens to a
path can be told from them. The segments of a plain path are names, and the last one ends in an
extension. Below a directory the output for such a path has the same names and another extension
(`segments_outputPath`), and on a disk those names are the end of its place (`Disk.resolve?_names`).
So the outputs for different plain paths have different places (`eq_of_same_place`).

What keeps a path from being plain is what gets lost on the way: a slash at the start, a `.` or
`..`, a second slash. Two extensions would get lost as well.
-/

namespace Sharpen

open List

variable {component : Component} {behind inner names place : List String}
  {extension name path segment stem : String}

namespace Path

/-- A text that names something in a directory. -/
def IsName (name : String) : Prop :=
  name ≠ "" ∧ name ≠ "." ∧ name ≠ ".." ∧ '/' ∉ name.toList

/-- What may stand before the dot of an extension. -/
def IsStem (stem : String) : Prop :=
  stem ≠ "" ∧ stem ≠ "." ∧ '/' ∉ stem.toList

instance : DecidablePred IsName := fun name =>
  inferInstanceAs (Decidable (name ≠ "" ∧ name ≠ "." ∧ name ≠ ".." ∧ '/' ∉ name.toList))

instance : DecidablePred IsStem := fun stem =>
  inferInstanceAs (Decidable (stem ≠ "" ∧ stem ≠ "." ∧ '/' ∉ stem.toList))

/-- A path of names, one below the other, whose last name ends in an extension. -/
def IsPlain (extension path : String) : Prop :=
  ∃ directories stem, (∀ name ∈ directories, IsName name) ∧ IsStem stem ∧
    '/' ∉ extension.toList ∧ '.' ∉ extension.toList ∧
    path = "/".intercalate (directories ++ [stem ++ "." ++ extension])

/-! ## Segments -/

theorem splitSlashes_eq (text : List Char) : splitSlashes text = text.splitOn '/' := by
  induction text with
  | nil => rw [splitSlashes, splitOn_nil]
  | cons c rest ih =>
    rw [splitSlashes, ih, splitOn_cons_eq_if_modifyHead]
    cases h : rest.splitOn '/' with
    | nil => exact absurd h (splitOn_ne_nil _ _)
    | cons segment segments => simp

theorem exists_segments (path : String) : ∃ first rest, segments path = first :: rest := by
  refine exists_cons_of_ne_nil ?_
  rw [segments, splitSlashes_eq]
  simp

theorem segments_append (before after : String) :
    segments (before ++ "/" ++ after) = segments before ++ segments after := by
  have htext : (before ++ "/" ++ after).toList = before.toList ++ '/' :: after.toList := by simp
  simp only [segments, splitSlashes_eq, htext, splitOn_append_cons_self, map_append]

theorem segments_of_not_mem (h : '/' ∉ name.toList) : segments name = [name] := by
  rw [segments, splitSlashes_eq, splitOn_eq_singleton h, map_singleton, String.ofList_toList]

theorem not_mem_of_mem_segments (h : segment ∈ segments path) : '/' ∉ segment.toList := by
  obtain ⟨text, htext, rfl⟩ := mem_map.mp h
  rw [String.toList_ofList]
  clear h
  generalize path.toList = whole at htext
  fun_induction splitSlashes whole generalizing text with
  | case1 => simp_all
  | case2 _ ih =>
    obtain rfl | htext := mem_cons.mp htext
    · exact not_mem_nil
    · exact ih text htext
  | case3 _ _ hc => simp_all [Ne.symm hc]
  | case4 _ _ hc first _ hrest ih =>
    rw [hrest] at ih
    obtain rfl | htext := mem_cons.mp htext
    · exact not_mem_cons_of_ne_of_not_mem (Ne.symm hc) (ih first (mem_cons_self ..))
    · exact ih text (mem_cons_of_mem _ htext)

/-- A path is put together again from its segments. -/
theorem intercalate_segments (path : String) : "/".intercalate (segments path) = path := by
  have hid : String.toList ∘ String.ofList = id := funext fun _ => String.toList_ofList
  rw [← String.toList_inj, String.toList_intercalate, segments, splitSlashes_eq,
    map_map, hid, map_id]
  exact intercalate_splitOn '/'

theorem segments_intercalate (hne : names ≠ []) (h : ∀ name ∈ names, '/' ∉ name.toList) :
    segments ("/".intercalate names) = names := by
  induction names with
  | nil => exact absurd rfl hne
  | cons name rest ih =>
    obtain ⟨hname, hrest⟩ := forall_mem_cons.mp h
    cases rest with
    | nil => rw [String.intercalate_singleton, segments_of_not_mem hname]
    | cons second more =>
      rw [String.intercalate_cons_cons, segments_append, segments_of_not_mem hname,
        ih (cons_ne_nil _ _) hrest, singleton_append]

theorem intercalate_concat (inner : List String) (last : String) :
    "/".intercalate (inner ++ [last]) = String.join (inner.map (· ++ "/")) ++ last := by
  induction inner with
  | nil =>
    rw [nil_append, String.intercalate_singleton, map_nil, String.join_nil, String.empty_append]
  | cons segment rest ih =>
    rw [cons_append, String.intercalate_cons_of_ne_nil (by simp), ih, map_cons, String.join_cons,
      String.append_assoc, String.append_assoc, String.append_assoc]

/-- The last segments of a path can be replaced by another one. -/
theorem segments_intercalate_concat {last : String} (hpath : segments path = inner ++ behind)
    (hlast : '/' ∉ last.toList) :
    segments ("/".intercalate (inner ++ [last])) = inner ++ [last] := by
  refine segments_intercalate (by simp) (forall_mem_append.mpr ⟨fun segment hsegment => ?_, ?_⟩)
  · exact not_mem_of_mem_segments (hpath ▸ mem_append_left _ hsegment)
  · exact forall_mem_singleton.mpr hlast

/-! ## Names below a directory -/

/-- The text that stands before a name in a directory. -/
def opening (directory : String) : String :=
  if directory.isEmpty || directory.toList.getLast? == some '/' then directory else directory ++ "/"

/-- The segments that stand before a name in a directory. -/
def inside (directory : String) : List String :=
  (segments (opening directory)).dropLast

theorem join_of_relative (h : isAbsolute path = false) (directory : String) :
    join directory path = opening directory ++ path := by
  rw [join, opening, h, if_neg Bool.false_ne_true]
  split
  · rfl
  · rfl

theorem opening_cases (directory : String) :
    opening directory = "" ∨ ∃ before, opening directory = before ++ "/" := by
  rw [opening]
  split
  · next h =>
    obtain h | h := Bool.or_eq_true_iff.mp h
    · exact .inl (String.isEmpty_iff.mp h)
    · obtain ⟨before, hbefore⟩ := List.getLast?_eq_some_iff.mp (eq_of_beq h)
      refine .inr ⟨String.ofList before, String.toList_inj.mp ?_⟩
      rw [hbefore, String.toList_append, String.toList_ofList]
      rfl
  · exact .inr ⟨directory, rfl⟩

theorem segments_opening (directory path : String) :
    segments (opening directory ++ path) = inside directory ++ segments path := by
  rw [inside]
  obtain h | ⟨before, h⟩ := opening_cases directory
  · rw [h, String.empty_append]
    rfl
  · have hopening : segments (before ++ "/" ++ "") = segments before ++ [""] :=
      segments_append before ""
    rw [String.append_empty] at hopening
    rw [h, segments_append, hopening, dropLast_concat]

theorem opening_of_name {before : String} (h : IsName name) :
    opening (before ++ name) = before ++ name ++ "/" := by
  obtain ⟨hempty, -, -, hslash⟩ := h
  have hne : name.toList ≠ [] := fun h => hempty (String.toList_eq_nil_iff.mp h)
  rw [opening, if_neg]
  rw [Bool.or_eq_true, String.isEmpty_iff, beq_iff_eq, not_or]
  refine ⟨fun h => hempty (String.append_eq_empty_iff.mp h).2, fun h => hslash ?_⟩
  rw [String.toList_append, List.getLast?_append, List.getLast?_eq_some_getLast hne,
    Option.some_or] at h
  exact mem_of_getLast? ((List.getLast?_eq_some_getLast hne).trans h)

theorem isAbsolute_append {before : String} (hempty : before ≠ "") (hslash : '/' ∉ before.toList)
    (after : String) : isAbsolute (before ++ after) = false := by
  obtain ⟨_, _, htext⟩ := exists_cons_of_ne_nil (mt String.toList_eq_nil_iff.mp hempty)
  rw [htext] at hslash
  rw [isAbsolute, String.toList_append, htext]
  exact beq_false_of_ne fun h => ne_of_not_mem_cons hslash (Option.some.inj h).symm

/-- A path is absolute if its first segment is empty and not its only one. -/
theorem isAbsolute_of_segments {first second : String} {rest : List String}
    (h : segments path = first :: second :: rest) : isAbsolute path = decide (first = "") := by
  have hpath : first ++ ("/" ++ "/".intercalate (second :: rest)) = path := by
    rw [← String.append_assoc, ← String.intercalate_cons_cons, ← h, intercalate_segments]
  rw [← hpath]
  by_cases hempty : first = ""
  · rw [hempty, String.empty_append, isAbsolute, String.toList_append]
    rfl
  · have hslash := not_mem_of_mem_segments (h ▸ mem_cons_self .. : first ∈ segments path)
    rw [isAbsolute_append hempty hslash, decide_eq_false hempty]

theorem isAbsolute_of_name {rest : List String} (hname : IsName name)
    (h : segments path = name :: rest) :
    isAbsolute path = false := by
  cases rest with
  | nil =>
    have hpath : name ++ "" = path := by
      rw [String.append_empty, ← intercalate_segments path, h, String.intercalate_singleton]
    rw [← hpath, isAbsolute_append hname.1 hname.2.2.2]
  | cons second more => rw [isAbsolute_of_segments h, decide_eq_false hname.1]

theorem isAbsolute_of_names (hne : names ≠ []) (hnames : ∀ name ∈ names, IsName name)
    (h : segments path = names) : isAbsolute path = false := by
  obtain ⟨name, _, rfl⟩ := exists_cons_of_ne_nil hne
  exact isAbsolute_of_name (hnames name (mem_cons_self ..)) h

/-- Names that are joined one after the other. -/
theorem foldl_join (hne : names ≠ []) (h : ∀ name ∈ names, IsName name) (start : String) :
    names.foldl join start = opening start ++ "/".intercalate names := by
  induction names generalizing start with
  | nil => exact absurd rfl hne
  | cons name rest ih =>
    obtain ⟨hname, hrest⟩ := forall_mem_cons.mp h
    have hjoin : join start name = opening start ++ name :=
      join_of_relative (isAbsolute_of_name hname (segments_of_not_mem hname.2.2.2)) start
    rw [foldl_cons, hjoin]
    cases rest with
    | nil => rw [foldl_nil, String.intercalate_singleton]
    | cons second more =>
      rw [ih (cons_ne_nil _ _) hrest, opening_of_name hname, String.intercalate_cons_cons,
        String.append_assoc, String.append_assoc, String.append_assoc]

/-! ## The last name -/

theorem innerComponent?_of_name (h : IsName name) : innerComponent? name = some (.normal name) := by
  obtain ⟨hempty, hcurrent, hparent, -⟩ := h
  rw [innerComponent?, if_neg (not_or.mpr ⟨hempty, hcurrent⟩), if_neg hparent]

theorem ne_of_innerComponent? (h : innerComponent? segment = some component) :
    segment ≠ "" ∧ segment ≠ "." := by
  refine not_or.mp fun hempty => ?_
  rw [innerComponent?, if_pos hempty] at h
  cases h

theorem innerSteps_of_none {segments : List String}
    (h : ∀ segment ∈ segments, innerComponent? segment = none) (before : String) :
    innerSteps before segments = [] := by
  induction segments generalizing before with
  | nil => rfl
  | cons segment rest ih =>
    obtain ⟨hsegment, hrest⟩ := forall_mem_cons.mp h
    rw [innerSteps, hsegment]
    exact ih hrest _

theorem getLast?_innerSteps (h : innerComponent? segment = some component)
    (hbehind : ∀ later ∈ behind, innerComponent? later = none) (before : String)
    (inner : List String) :
    (innerSteps before (inner ++ segment :: behind)).getLast? =
      some ⟨before ++ String.join (inner.map (· ++ "/")), component⟩ := by
  induction inner generalizing before with
  | nil =>
    rw [nil_append, innerSteps, h, innerSteps_of_none hbehind, map_nil, String.join_nil,
      String.append_empty]
    rfl
  | cons first rest ih =>
    have hrest := ih (before ++ first ++ "/")
    rw [map_cons, String.join_cons, ← String.append_assoc, ← String.append_assoc, ← hrest,
      cons_append, innerSteps]
    split
    · rw [List.getLast?_cons, hrest, Option.getD_some]
    · rfl

/-- The last step of a path is the last segment that says something. -/
theorem getLast?_steps (h : innerComponent? segment = some component)
    (hbehind : ∀ later ∈ behind, innerComponent? later = none)
    (hpath : segments path = inner ++ segment :: behind) :
    (steps path).getLast? = some ⟨String.join (inner.map (· ++ "/")), component⟩ := by
  obtain ⟨hempty, hcurrent⟩ := ne_of_innerComponent? h
  have hfirst : ∀ {first : String} {rest : List String}, inner ++ segment :: behind =
    first :: rest →
      segment ≠ first → ∃ more, inner = first :: more ∧ rest = more ++ segment :: behind := by
    intro first rest heq hne
    cases inner with
    | nil => exact absurd (List.cons.inj heq).1 hne
    | cons first more =>
      obtain ⟨rfl, rfl⟩ := List.cons.inj heq
      exact ⟨more, rfl, rfl⟩
  have hlast : ∀ {first : Component} {before : String} {rest : List String},
      (⟨"", first⟩ :: innerSteps before (rest ++ segment :: behind)).getLast? =
        some ⟨before ++ String.join (rest.map (· ++ "/")), component⟩ := by
    intro first before rest
    rw [List.getLast?_cons, getLast?_innerSteps h hbehind, Option.getD_some]
  rw [steps, hpath]
  split
  · next heq => exact absurd heq (by simp)
  · next heq =>
    obtain ⟨_, -, hmore⟩ := hfirst heq hempty
    exact absurd hmore (by simp)
  · next heq =>
    obtain ⟨_, rfl, rfl⟩ := hfirst heq hempty
    rw [hlast, map_cons, String.join_cons]
    rfl
  · next heq =>
    obtain ⟨_, rfl, rfl⟩ := hfirst heq hcurrent
    rw [hlast, map_cons, String.join_cons]
    rfl
  · rw [getLast?_innerSteps h hbehind, String.empty_append]

theorem map_component_innerSteps (before : String) (segments : List String) :
    (innerSteps before segments).map (·.component) = segments.filterMap innerComponent? := by
  induction segments generalizing before with
  | nil => rfl
  | cons segment rest ih =>
    rw [innerSteps]
    split
    · next hsegment => rw [map_cons, ih, filterMap_cons_some hsegment]
    · next hsegment => rw [ih, filterMap_cons_none hsegment]

theorem filterMap_innerComponent? (hnames : ∀ name ∈ names, IsName name) :
    names.filterMap innerComponent? = names.map .normal := by
  induction names with
  | nil => rfl
  | cons name rest ih =>
    obtain ⟨hname, hrest⟩ := forall_mem_cons.mp hnames
    rw [filterMap_cons_some (innerComponent?_of_name hname), ih hrest, map_cons]

theorem splitExtension_append (hstem : stem ≠ "") (hdot : '.' ∉ extension.toList) :
    splitExtension (stem ++ "." ++ extension) = (stem, some extension) := by
  have hbackwards : (stem ++ "." ++ extension).toList.reverse =
      extension.toList.reverse ++ '.' :: stem.toList.reverse := by simp
  have hbehind : ∀ c ∈ extension.toList.reverse, decide (c ≠ '.') = true := by
    intro c hc
    exact decide_eq_true fun heq => hdot (heq ▸ mem_reverse.mp hc)
  have hdropped : (extension.toList.reverse ++ '.' :: stem.toList.reverse).dropWhile (· ≠ '.') =
      '.' :: stem.toList.reverse := by
    rw [dropWhile_append_of_pos hbehind]
    rfl
  have htaken : (extension.toList.reverse ++ '.' :: stem.toList.reverse).takeWhile (· ≠ '.') =
      extension.toList.reverse := by
    rw [takeWhile_append_of_pos hbehind]
    exact append_nil _
  have hne : stem.toList.reverse ≠ [] := by simpa using hstem
  obtain ⟨_, _, hlast⟩ := exists_cons_of_ne_nil hne
  rw [splitExtension, hbackwards, hdropped, htaken, hlast]
  dsimp only
  rw [← hlast, reverse_reverse, reverse_reverse, String.ofList_toList, String.ofList_toList]

theorem IsStem.isName (hstem : IsStem stem) (hslash : '/' ∉ extension.toList) :
    IsName (stem ++ "." ++ extension) := by
  obtain ⟨hempty, hdot, hstem⟩ := hstem
  have htext : (stem ++ "." ++ extension).toList = stem.toList ++ '.' :: extension.toList := by simp
  -- before the dot stands at least one character, and not only another dot
  obtain ⟨first, rest, hfirst⟩ := exists_cons_of_ne_nil (mt String.toList_eq_nil_iff.mp hempty)
  have hne : ∀ {text : String}, stem ++ "." ++ extension = text →
      first :: (rest ++ '.' :: extension.toList) = text.toList := by
    rintro _ rfl
    rw [htext, hfirst, cons_append]
  refine ⟨fun h => ?_, fun h => ?_, fun h => ?_, ?_⟩
  · cases hne h
  · exact absurd (List.cons.inj (hne h)).2 (by simp)
  · obtain ⟨rfl, hrest⟩ := List.cons.inj (hne h)
    obtain ⟨rfl, -⟩ | ⟨-, hnil⟩ := append_eq_singleton_iff.mp hrest
    · exact hdot (String.toList_inj.mp hfirst)
    · cases hnil
  · rw [htext, mem_append, mem_cons, not_or, not_or]
    exact ⟨hstem, by decide, hslash⟩

theorem IsStem.forall_isName {directories : List String} (hstem : IsStem stem)
    (hdirectories : ∀ name ∈ directories, IsName name) (hslash : '/' ∉ extension.toList) :
    ∀ name ∈ directories ++ [stem ++ "." ++ extension], IsName name :=
  forall_mem_append.mpr ⟨hdirectories, forall_mem_singleton.mpr (hstem.isName hslash)⟩

/-- A name with another extension. -/
theorem withExtension_of_name (hstem : IsStem stem) (hslash : '/' ∉ extension.toList)
    (hdot : '.' ∉ extension.toList) (hpath : segments path = inner ++ [stem ++ "." ++ extension])
    (other : String) :
    withExtension path other = "/".intercalate (inner ++ [stem ++ "." ++ other]) := by
  have htext : String.join (inner.map (· ++ "/")) ++ (stem ++ "." ++ extension) = path := by
    rw [← intercalate_concat, ← hpath, intercalate_segments]
  have hcut : cutExtension path = String.join (inner.map (· ++ "/")) ++ stem ++ "." := by
    rw [cutExtension, getLast?_steps (innerComponent?_of_name (hstem.isName hslash))
      (forall_mem_nil _) hpath]
    dsimp only
    rw [splitExtension_append hstem.1 hdot]
    exact if_pos htext
  have hsegments : segments (cutExtension path) = inner ++ [stem ++ "." ++ ""] := by
    have hname : IsName (stem ++ "." ++ "") := hstem.isName (by simp)
    rw [String.append_empty] at hname ⊢
    rw [hcut, String.append_assoc, ← intercalate_concat,
      segments_intercalate_concat hpath hname.2.2.2]
  unfold withExtension
  dsimp only
  rw [getLast?_steps (innerComponent?_of_name (hstem.isName (by simp)))
    (forall_mem_nil _) hsegments]
  dsimp only
  rw [splitExtension_append hstem.1 (by simp), intercalate_concat]
  simp only [String.append_assoc]

/-! ## Plain paths -/

/-- The components of a path whose segments are names. -/
theorem components_of_names (hnames : ∀ name ∈ names, IsName name) (hpath : segments path = names) :
    components path = names.map .normal := by
  rw [components, steps, hpath]
  split
  · rfl
  · exact absurd rfl (hnames "" (mem_cons_self ..)).1
  · exact absurd rfl (hnames "" (mem_cons_self ..)).1
  · exact absurd rfl (hnames "." (mem_cons_self ..)).2.1
  · rw [map_component_innerSteps, filterMap_innerComponent? hnames]

theorem segments_join (hne : names ≠ []) (hnames : ∀ name ∈ names, IsName name)
    (directory : String) :
    segments (join directory ("/".intercalate names)) = inside directory ++ names := by
  have hsegments := segments_intercalate hne fun name hname => (hnames name hname).2.2.2
  rw [join_of_relative (isAbsolute_of_names hne hnames hsegments), segments_opening, hsegments]

end Path

/-- Names stay as they are. -/
theorem relativePath_of_names (hne : names ≠ []) (hnames : ∀ name ∈ names, Path.IsName name) :
    relativePath ("/".intercalate names) = "/".intercalate names := by
  have hsegments := Path.segments_intercalate hne fun name hname => (hnames name hname).2.2.2
  have hname? : (names.map Component.normal).filterMap Component.name? = names := by
    rw [filterMap_map]
    exact filterMap_some
  rw [relativePath, Path.components_of_names hnames hsegments, hname?, Path.foldl_join hne hnames]
  rfl

/-- Below a directory the output for a plain path has the same names and another extension. -/
theorem segments_outputPath {directories : List String}
    (hdirectories : ∀ name ∈ directories, Path.IsName name) (hstem : Path.IsStem stem)
    (hslash : '/' ∉ extension.toList) (hdot : '.' ∉ extension.toList) (source directory : String) :
    let recorded := "/".intercalate (directories ++ [stem ++ "." ++ extension])
    Path.segments (outputPath recorded source (some directory)) =
      Path.inside directory ++ (directories ++ [stem ++ "." ++ codeExtension]) := by
  intro recorded
  have hnames := hstem.forall_isName hdirectories hslash
  have hcode : ∀ name ∈ directories ++ [stem ++ "." ++ codeExtension], Path.IsName name :=
    hstem.forall_isName hdirectories (by decide)
  have hinside : ∀ segment ∈ Path.inside directory, '/' ∉ segment.toList := fun segment hsegment =>
    Path.not_mem_of_mem_segments (dropLast_subset _ hsegment)
  have hne : directories ++ [stem ++ "." ++ extension] ≠ [] := by simp
  have htarget : Path.segments (Path.join directory recorded) =
      (Path.inside directory ++ directories) ++ [stem ++ "." ++ extension] := by
    rw [Path.segments_join hne hnames, append_assoc]
  rw [outputPath, relativePath_of_names hne hnames,
    Path.withExtension_of_name hstem hslash hdot htarget, append_assoc]
  refine Path.segments_intercalate (by simp) (forall_mem_append.mpr ⟨hinside, fun name hname => ?_⟩)
  exact (hcode name hname).2.2.2

/-! ## Places -/

namespace Disk

variable {disk : Disk}

theorem follow_append (place before after : List String) :
    disk.follow place (before ++ after) =
      (disk.follow place before).bind (disk.follow · after) := by
  induction before generalizing place with
  | nil => rfl
  | cons segment rest ih =>
    rw [cons_append, follow, follow]
    split
    · rfl
    split
    · exact ih place
    split
    · exact ih place.dropLast
    split
    · exact ih (place ++ [segment])
    · rfl

/-- Names lead down, one after the other. -/
theorem follow_names {target : List String} (hnames : ∀ name ∈ names, Path.IsName name)
    (h : disk.follow place names = some target) : target = place ++ names := by
  induction names generalizing place with
  | nil => rw [append_nil, Option.some.inj h]
  | cons name rest ih =>
    obtain ⟨⟨hempty, hcurrent, hparent, -⟩, hrest⟩ := forall_mem_cons.mp hnames
    rw [follow, if_neg (not_or.mpr ⟨hempty, hcurrent⟩), if_neg hparent] at h
    split at h
    · cases h
    split at h
    · rw [ih hrest h, append_assoc, singleton_append]
    · cases h

/-- The place from which the segments of a path are followed. -/
def startOf (disk : Disk) (segments : List String) : List String :=
  if segments.head? = some "" then [] else disk.here

/-- A path that ends in names leads to those names, below the place to which the rest of it leads.
-/
theorem resolve?_names (hne : names ≠ []) (hnames : ∀ name ∈ names, Path.IsName name)
    (hpath : Path.segments path = inner ++ names) (h : disk.resolve? path = some place) :
    ∃ base, disk.follow (disk.startOf inner) inner = some base ∧ place = base ++ names := by
  have hstart : disk.start path = disk.startOf inner := by
    rw [start, startOf]
    cases inner with
    | nil => rw [Path.isAbsolute_of_names hne hnames hpath]; rfl
    | cons first more =>
      obtain ⟨_, _, hrest⟩ := exists_cons_of_ne_nil (append_ne_nil_of_right_ne_nil more hne)
      rw [cons_append, hrest] at hpath
      simp [Path.isAbsolute_of_segments hpath]
  rw [resolve?] at h
  split at h
  · cases h
  rw [hstart, hpath, follow_append] at h
  obtain ⟨base, hbase, hfollow⟩ := Option.bind_eq_some_iff.mp h
  exact ⟨base, hbase, follow_names hnames hfollow⟩

end Disk

/-- The place of the output for a plain path: the same names with another extension, below one
place. -/
theorem place_of_plain {disk : Disk} {source directory : String}
    (hplain : Path.IsPlain extension path)
    (hplace : disk.resolve? (outputPath path source (some directory)) = some place) :
    ∃ directories stem base, path = "/".intercalate (directories ++ [stem ++ "." ++ extension]) ∧
      disk.follow (disk.startOf (Path.inside directory)) (Path.inside directory) = some base ∧
      place = base ++ (directories ++ [stem ++ "." ++ codeExtension]) := by
  obtain ⟨directories, stem, hdirectories, hstem, hslash, hdot, rfl⟩ := hplain
  have hnames : ∀ name ∈ directories ++ [stem ++ "." ++ codeExtension], Path.IsName name :=
    hstem.forall_isName hdirectories (by decide)
  obtain ⟨base, hbase, hnames⟩ := Disk.resolve?_names (by simp) hnames
    (segments_outputPath hdirectories hstem hslash hdot source directory) hplace
  exact ⟨directories, stem, base, rfl, hbase, hnames⟩

/-- **Different plain paths, different places**: the outputs for plain paths with one extension have
one place below a directory only if the paths are the same. -/
theorem eq_of_same_place {disk : Disk} {first second firstSource secondSource directory : String}
    (hfirst : Path.IsPlain extension first) (hsecond : Path.IsPlain extension second)
    (hfirstPlace : disk.resolve? (outputPath first firstSource (some directory)) = some place)
    (hsecondPlace : disk.resolve? (outputPath second secondSource (some directory)) = some place) :
    first = second := by
  obtain ⟨_, stem, _, rfl, hbase, rfl⟩ := place_of_plain hfirst hfirstPlace
  obtain ⟨_, otherStem, _, rfl, hother, hplace⟩ := place_of_plain hsecond hsecondPlace
  obtain rfl := Option.some.inj (hbase.symm.trans hother)
  obtain ⟨rfl, hstem⟩ := append_inj' (append_cancel_left hplace) rfl
  obtain rfl : stem = otherStem := by simpa using hstem
  rfl

end Sharpen

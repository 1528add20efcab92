import Sharpen.Command.FileTree

/-!
# Files that stay

What writing changes on a disk, and what it leaves alone. A disk only grows: a directory stays a
directory, so a path that leads somewhere goes on leading there (`Disk.Grows.resolve?_eq`), and a
file changes only if something is written at its own place.

`Disk.Grows touched` is this order on disks, with the places at which something may have been
written. `Disk.grows_of_makeDirectories?` and `Disk.grows_of_write?` say how the operations move in
it.
-/

namespace Sharpen

open List

/-! ## Trees -/

namespace FileTree

variable {leaf tree changed : FileTree} {place other : List String} {name key : String}
  {entries : List (String × FileTree)}

theorem lookup_insertEntry_self : (insertEntry name tree entries).lookup name = some tree := by
  induction entries with
  | nil => exact lookup_cons_self
  | cons entry rest ih =>
    rw [insertEntry]
    split
    · exact lookup_cons_self
    split
    · exact lookup_cons_self
    · next hne _ => rw [lookup_cons, beq_false_of_ne hne, ih]

theorem lookup_insertEntry_of_ne (hne : key ≠ name) :
    (insertEntry name tree entries).lookup key = entries.lookup key := by
  have hskip : ∀ rest : List (String × FileTree), ((name, tree) :: rest).lookup key =
    rest.lookup key := by
    intro rest
    rw [lookup_cons, beq_false_of_ne hne]
  induction entries with
  | nil => exact hskip []
  | cons entry rest ih =>
    rw [insertEntry]
    split
    · next heq => rw [hskip, lookup_cons, ← heq, beq_false_of_ne hne]
    split
    · exact hskip _
    · rw [lookup_cons, lookup_cons, ih]

theorem any_isDirectory_iff {found : Option FileTree} :
    found.any isDirectory ↔ ∃ entries, found = some (directory entries) := by
  constructor
  · intro h
    cases found with
    | none => cases h
    | some tree =>
      cases tree with
      | file => cases h
      | directory entries => exact ⟨entries, rfl⟩
  · rintro ⟨_, rfl⟩
    rfl

/-- Something is put below a name only in a directory, which gets a new entry for that name. -/
theorem put?_cons (h : put? leaf tree (name :: place) = some changed) :
    ∃ entries child, tree = directory entries ∧
      put? leaf ((entries.lookup name).getD (directory [])) place = some child ∧
      changed = directory (insertEntry name child entries) := by
  cases tree with
  | file => cases h
  | directory entries =>
    obtain ⟨child, hchild, heq⟩ := Option.bind_eq_some_iff.mp h
    exact ⟨entries, child, rfl, hchild, (Option.some.inj heq).symm⟩

/-- What is put somewhere stands there. -/
theorem get?_of_put? (h : put? leaf tree place = some changed) :
    changed.get? place = some leaf := by
  induction place generalizing tree changed with
  | nil => rw [← Option.some.inj h, get?]
  | cons name place ih =>
    obtain ⟨_, _, rfl, hchild, rfl⟩ := put?_cons h
    rw [get?, lookup_insertEntry_self, Option.bind_some, ih hchild]

/-- What one may become when something is put elsewhere: a file stays as it is, and a directory
stays one. -/
inductive Stays : FileTree → FileTree → Prop where
  | file (content : ByteArray) : Stays (.file content) (.file content)
  | directory (entries others : List (String × FileTree)) :
      Stays (.directory entries) (.directory others)

theorem Stays.refl (tree : FileTree) : Stays tree tree := by
  cases tree with
  | file content => exact .file content
  | directory entries => exact .directory entries entries

/-- What is put in the place of no directory leaves everything else where it is. -/
theorem stays_of_put? (h : put? leaf tree place = some changed)
    (hfree : ∀ entries, tree.get? place ≠ some (directory entries)) (hne : other ≠ place)
    {old : FileTree} (hold : tree.get? other = some old) :
    ∃ new, changed.get? other = some new ∧ Stays old new := by
  -- along the path of the new leaf: the other path ends in a directory on the way, or turns off, or
  -- goes on
  induction place generalizing tree changed other with
  | nil =>
    obtain ⟨_, _, rfl⟩ := exists_cons_of_ne_nil hne
    cases tree with
    | file => cases hold
    | directory entries => exact absurd rfl (hfree entries)
  | cons name place ih =>
    obtain ⟨_, _, rfl, hchild, rfl⟩ := put?_cons h
    cases other with
    | nil =>
      cases hold
      exact ⟨_, rfl, .directory _ _⟩
    | cons key other =>
      rw [get?] at hold ⊢
      by_cases hkey : key = name
      · subst hkey
        rw [lookup_insertEntry_self]
        obtain ⟨_, hbelow, hold⟩ := Option.bind_eq_some_iff.mp hold
        rw [hbelow, Option.getD_some] at hchild
        refine ih hchild (fun inside hinside => hfree inside ?_) (fun heq => hne (by rw [heq])) hold
        rw [get?, hbelow, Option.bind_some, hinside]
      · rw [lookup_insertEntry_of_ne hkey]
        exact ⟨old, hold, .refl old⟩

end FileTree

/-! ## Disks -/

namespace Disk

/-- One disk comes after another: directories are still there, and so are files except at some
places. -/
structure Grows (touched : List String → Prop) (disk changed : Disk) : Prop where
  here : changed.here = disk.here
  directory : ∀ {place entries}, disk.root.get? place = some (.directory entries) →
    ∃ others, changed.root.get? place = some (.directory others)
  file : ∀ {place content}, ¬ touched place → disk.root.get? place = some (.file content) →
    changed.root.get? place = some (.file content)

namespace Grows

variable {touched other : List String → Prop} {disk changed final : Disk}
  {place target : List String}

theorem refl (disk : Disk) : disk.Grows touched disk :=
  ⟨rfl, fun h => ⟨_, h⟩, fun _ h => h⟩

theorem trans (h : disk.Grows touched changed) (hthen : changed.Grows other final) :
    disk.Grows (fun place => touched place ∨ other place) final := by
  refine ⟨hthen.here.trans h.here, fun hdirectory => ?_, fun huntouched hfile => ?_⟩
  · obtain ⟨_, hothers⟩ := h.directory hdirectory
    exact hthen.directory hothers
  · obtain ⟨hfirst, hsecond⟩ := not_or.mp huntouched
    exact hthen.file hsecond (h.file hfirst hfile)

theorem mono (h : disk.Grows touched changed) (hsub : ∀ place, touched place → other place) :
    disk.Grows other changed :=
  ⟨h.here, h.directory, fun huntouched => h.file fun htouched => huntouched (hsub _ htouched)⟩

/-- A path that can be followed leads to the same place later. -/
theorem follow_eq (h : disk.Grows touched changed) {segments : List String}
    (hfollow : disk.follow place segments = some target) :
    changed.follow place segments = some target := by
  induction segments generalizing place with
  | nil => exact hfollow
  | cons segment rest ih =>
    rw [follow] at hfollow ⊢
    split at hfollow
    · cases hfollow
    next hdirectory =>
    rw [Bool.not_eq_true', Bool.not_eq_false, FileTree.any_isDirectory_iff] at hdirectory
    obtain ⟨_, hentries⟩ := hdirectory
    rw [if_neg (by simp [FileTree.any_isDirectory_iff.mpr (h.directory hentries)])]
    split at hfollow
    · next hskip => rw [if_pos hskip, ih hfollow]
    next hskip =>
    rw [if_neg hskip]
    split at hfollow
    · next hparent => rw [if_pos hparent, ih hfollow]
    next hparent =>
    rw [if_neg hparent]
    split at hfollow
    · next hname => rw [if_pos hname, ih hfollow]
    · cases hfollow

theorem resolve?_eq (h : disk.Grows touched changed) {path : String}
    (hresolve : disk.resolve? path = some place) : changed.resolve? path = some place := by
  rw [resolve?] at hresolve ⊢
  split at hresolve
  · cases hresolve
  · next hfollowable =>
    rw [if_neg hfollowable, start, h.here]
    exact h.follow_eq hresolve

end Grows

/-- Something new, or in the place of a file, makes the disk grow. -/
theorem grows_of_put? {disk : Disk} {leaf root : FileTree} {place : List String}
    (h : FileTree.put? leaf disk.root place = some root)
    (hfree : ¬ (disk.root.get? place).any FileTree.isDirectory) :
    disk.Grows (· = place) { disk with root } := by
  have hfree : ∀ entries, disk.root.get? place ≠ some (.directory entries) :=
    fun entries heq => hfree (FileTree.any_isDirectory_iff.mpr ⟨entries, heq⟩)
  refine ⟨rfl, fun {other entries} hother => ?_, fun {other content} hne hother => ?_⟩
  · have hne : other ≠ place := fun heq => hfree entries (heq ▸ hother)
    obtain ⟨_, hnew, hstays⟩ := FileTree.stays_of_put? h hfree hne hother
    cases hstays
    exact ⟨_, hnew⟩
  · obtain ⟨_, hnew, hstays⟩ := FileTree.stays_of_put? h hfree hne hother
    cases hstays
    exact hnew

theorem grows_of_new {disk : Disk} {leaf root : FileTree} {place : List String}
    (h : FileTree.put? leaf disk.root place = some root) (hnone : disk.root.get? place = none) :
    disk.Grows (fun _ => False) { disk with root } := by
  have hgrows := grows_of_put? h (by rw [hnone]; exact Bool.false_ne_true)
  refine ⟨hgrows.here, hgrows.directory, fun _ hfile => hgrows.file ?_ hfile⟩
  rintro rfl
  rw [hnone] at hfile
  cases hfile

variable {disk changed : Disk} {path : String}

/-- Making directories touches no file. -/
theorem grows_of_makeFrom {place segments : List String}
    (h : disk.makeFrom place segments = some changed) : disk.Grows (fun _ => False) changed := by
  fun_induction makeFrom disk place segments with
  | case1 disk =>
    obtain rfl := Option.some.inj h
    exact .refl disk
  | case2 _ _ _ _ _ ih | case3 _ _ _ _ ih
  | case5 _ _ _ _ _ _ _ _ _ _ ih => exact ih h
  | case4 => cases h
  | case6 => cases h
  | case7 _ _ _ _ _ _ _ _ hnone ih =>
    obtain ⟨root, hroot, h⟩ := Option.bind_eq_some_iff.mp h
    exact ((grows_of_new hroot hnone).trans (ih root h)).mono fun _ => or_self_iff.mp

theorem grows_of_makeDirectories? (h : disk.makeDirectories? path = some changed) :
    disk.Grows (fun _ => False) changed := by
  rw [makeDirectories?] at h
  split at h
  · exact grows_of_makeFrom h
  · cases h

/-- A file that is written stands where its path leads, and nothing else is touched. -/
theorem grows_of_write? {content : ByteArray} (h : disk.write? path content = some changed) :
    ∃ place, changed.resolve? path = some place ∧ changed.root.get? place = some (.file content) ∧
      disk.Grows (· = place) changed := by
  rw [write?] at h
  split at h
  · cases h
  · cases h
  · cases h
  · cases h
  · obtain ⟨place, hplace, h⟩ := Option.bind_eq_some_iff.mp h
    split at h
    · cases h
    next hfree =>
    obtain ⟨root, hroot, h⟩ := Option.bind_eq_some_iff.mp h
    obtain rfl := Option.some.inj h
    have hgrows := grows_of_put? hroot hfree
    exact ⟨place, hgrows.resolve?_eq hplace, FileTree.get?_of_put? hroot, hgrows⟩

end Disk

end Sharpen

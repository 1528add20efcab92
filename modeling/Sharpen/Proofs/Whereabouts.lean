import Sharpen.Proofs.Outcome
import Sharpen.Proofs.Surroundings

/-!
# What a conversion gives where it stands

`c.GivesWhere P a` says that the conversion `c` gives the result `a` in some surroundings of which
`P` holds. It is taken apart like `Convert.Gives`. As conversions leave their surroundings as they
found them, what comes after the first one still stands where it stood, if `P` does not look at the
one flag that may change.

Where it matters in which surroundings exactly the conversions of a list are run, `Convert.starts`
lists them: each one starts where the one before it has ended. All of them succeed if and only if
each succeeds where it starts.
-/

namespace Sharpen

open List

variable {place : Surroundings}

/-- A property of surroundings that no conversion changes. -/
def Surroundings.Kept (P : Surroundings → Prop) : Prop :=
  ∀ ⦃before after : Surroundings⦄, before.Settles after → P before → P after

theorem Surroundings.kept_settles (place : Surroundings) : Surroundings.Kept place.Settles :=
  fun _ _ hafter hbefore => hbefore.trans hafter

namespace Convert

variable {α β : Type} {P : Surroundings → Prop} {c : Convert α} {a : α}

/-- In some surroundings with this property the conversion succeeds with this result. -/
def GivesWhere (P : Surroundings → Prop) (c : Convert α) (a : α) : Prop :=
  ∃ surroundings, P surroundings ∧ (c surroundings).1 = .ok a

variable {f : α → Convert β} {b : β} {items : List α}

namespace GivesWhere

theorem gives (h : c.GivesWhere P a) : c.Gives a := by
  obtain ⟨surroundings, -, hrun⟩ := h
  exact ⟨surroundings, hrun⟩

/-- A conversion that settles leaves those after it where they were. -/
theorem bind (h : (c >>= f).GivesWhere P b) (hkept : Surroundings.Kept P) (hsettles : c.Settles) :
    ∃ a, c.GivesWhere P a ∧ (f a).GivesWhere P b := by
  obtain ⟨surroundings, hplace, hrun⟩ := h
  obtain ⟨a, after, hfirst, hrest⟩ := ok_of_bind hrun
  have hafter := hsettles surroundings
  rw [hfirst] at hafter
  exact ⟨a, ⟨surroundings, hplace, congrArg Prod.fst hfirst⟩, after, hkept hafter hplace, hrest⟩

theorem bind_ofExcept {result : Except ConversionError α}
    (h : (ofExcept result >>= f).GivesWhere P b) :
    ∃ a, result = .ok a ∧ (f a).GivesWhere P b := by
  obtain ⟨surroundings, hplace, hrun⟩ := h
  obtain ⟨a, _, hfirst, hrest⟩ := ok_of_bind hrun
  obtain ⟨hresult, rfl⟩ := Prod.ext_iff.mp hfirst
  exact ⟨a, hresult, surroundings, hplace, hrest⟩

theorem map {f : α → β} (h : GivesWhere P (do return f (← c)) b) :
    ∃ a, c.GivesWhere P a ∧ b = f a := by
  obtain ⟨surroundings, hplace, hrun⟩ := h
  obtain ⟨a, _, hfirst, hrest⟩ := ok_of_bind hrun
  exact ⟨a, ⟨surroundings, hplace, congrArg Prod.fst hfirst⟩, (Except.ok.inj hrest).symm⟩

theorem mapM (hkept : Surroundings.Kept P) (hsettles : ∀ item, (f item).Settles) {results : List β}
    (h : GivesWhere P (items.mapM f) results) :
    Forall₂ (fun item result => (f item).GivesWhere P result) items results := by
  induction items generalizing results with
  | nil =>
    obtain rfl := h.gives.pure
    exact .nil
  | cons item rest ih =>
    rw [mapM_cons] at h
    obtain ⟨_, hfirst, h⟩ := h.bind hkept (hsettles item)
    obtain ⟨_, hothers, rfl⟩ := h.map
    exact .cons hfirst (ih hothers)

/-- One level further in. -/
theorem of_nested (h : (Convert.nested c).GivesWhere place.Settles a) :
    c.GivesWhere ({ place with depth := place.depth + 1 } : Surroundings).Settles a := by
  obtain ⟨_, rfl | rfl, hrun⟩ := h
  · exact ⟨_, .inl rfl, hrun⟩
  · exact ⟨_, .inr rfl, hrun⟩

/-- What is left to the converters for where a conversion stands is done by those of its level. -/
theorem current {setting : Setting} {rule : Inner → Convert α} {levels : Nat}
    (hlevels : levels = depthLimit - place.depth)
    (h : (rule (Inner.at setting levels)).GivesWhere place.Settles a) :
    (Inner.current setting >>= rule).GivesWhere place.Settles a := by
  obtain ⟨surroundings, hsettles, hrun⟩ := h
  refine ⟨surroundings, hsettles, ?_⟩
  have hdepth : surroundings.depth = place.depth := by
    obtain rfl | rfl := hsettles
    · rfl
    · rfl
  rwa [Inner.run_current, hdepth, ← hlevels]

end GivesWhere

/-! ## Conversions one after the other -/

theorem run_bind_ok_iff :
    ((c >>= f) place).1 = .ok b ↔ ∃ a, (c place).1 = .ok a ∧ (f a (c place).2).1 = .ok b := by
  rw [run_bind]
  generalize c place = run
  obtain ⟨result⟩ := run
  cases result with
  | ok a => exact ⟨fun h => ⟨a, rfl, h⟩, fun ⟨_, ha, h⟩ => Except.ok.inj ha ▸ h⟩
  | error error => exact ⟨nofun, fun ⟨_, ha, _⟩ => nomatch ha⟩

theorem run_map_ok_iff {f : α → β} :
    ((do return f (← c) : Convert β) place).1 = .ok b ↔ ∃ a, (c place).1 = .ok a ∧ b = f a := by
  rw [run_bind_ok_iff]
  exact exists_congr fun a => and_congr_right fun _ =>
    ⟨fun h => (Except.ok.inj h).symm, fun h => congrArg Except.ok h.symm⟩

/-! ## Lists of conversions -/

/-- The items of a list, each with the surroundings in which its conversion starts when they are
converted one after the other. -/
def starts (f : α → Convert β) (place : Surroundings) : List α → List (α × Surroundings)
  | [] => []
  | item :: rest => (item, place) :: starts f (f item place).2 rest

/-- Forms into which results are put make no difference to where the conversions start. -/
theorem starts_map {γ : Type} (f : α → Convert β) (g : α → β → γ) (place : Surroundings)
    (items : List α) :
    starts (fun item => do return g item (← f item)) place items = starts f place items := by
  induction items generalizing place with
  | nil => rfl
  | cons item rest ih =>
    have hafter : ((do return g item (← f item) : Convert γ) place).2 = (f item place).2 := by
      rw [run_bind]
      generalize f item place = run
      obtain ⟨result⟩ := run
      cases result with
      | ok value => rfl
      | error error => rfl
    rw [starts, starts, ih, hafter]

theorem map_fst_starts (f : α → Convert β) (place : Surroundings) (items : List α) :
    (starts f place items).map Prod.fst = items := by
  induction items generalizing place with
  | nil => rfl
  | cons item rest ih => rw [starts, map_cons, ih]

theorem run_mapM_cons (f : α → Convert β) (item : α) (rest : List α) (place : Surroundings) :
    (((item :: rest).mapM f) place).1 = match (f item place).1,
      ((rest.mapM f) (f item place).2).1 with
      | .ok first, .ok others => .ok (first :: others)
      | .ok _, .error error => .error error | .error error, _ => .error error := by
  rw [mapM_cons, run_bind]
  generalize f item place = run
  obtain ⟨result, after⟩ := run
  cases result with
  | error error => rfl
  | ok first =>
    dsimp only
    rw [run_bind]
    generalize (rest.mapM f) after = run
    obtain ⟨result⟩ := run
    cases result with
    | error error => rfl
    | ok others => rfl

/-- Conversions one after the other succeed if each of them succeeds where it starts. -/
theorem run_mapM_ok_iff {results : List β} : ((items.mapM f) place).1 = .ok results ↔
      Forall₂ (fun part result => (f part.1 part.2).1 = .ok result)
        (starts f place items) results := by
  induction items generalizing results place with
  | nil =>
    rw [starts, forall₂_nil_left_iff]
    exact ⟨fun h => (Except.ok.inj h).symm, fun h => congrArg Except.ok h.symm⟩
  | cons item rest ih =>
    rw [run_mapM_cons, starts, forall₂_cons_left_iff]
    constructor
    · intro h
      split at h
      · next first others hfirst hothers => exact ⟨first, others, hfirst, ih.mp hothers,
          (Except.ok.inj h).symm⟩
      · cases h
      · cases h
    · rintro ⟨_, _, hfirst, hothers, rfl⟩
      dsimp only at hfirst
      rw [hfirst, ih.mpr hothers]

/-- Conversions one after the other fail if one of them fails where it starts. -/
theorem run_mapM_error_iff : (∃ error, ((items.mapM f) place).1 = .error error) ↔
      ∃ part ∈ starts f place items, ∃ error, (f part.1 part.2).1 = .error error := by
  induction items generalizing place with
  | nil =>
    constructor
    · rintro ⟨_, h⟩
      cases h
    · rintro ⟨_, hpart, -⟩
      cases hpart
  | cons item rest ih =>
    simp only [starts, mem_cons, exists_eq_or_imp, ← ih, run_mapM_cons]
    cases (f item place).1 with
    | error error => simp
    | ok first =>
      cases ((rest.mapM f) (f item place).2).1 with
      | error error => simp
      | ok others => simp

end Convert

end Sharpen

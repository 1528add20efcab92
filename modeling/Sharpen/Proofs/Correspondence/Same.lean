import Sharpen.Proofs.Correspondence.Basic

/-!
# Conversions that do the same in some surroundings

To say that something never happens in a conversion, it is run once more with converters that look
out for it. The two runs are then compared where a property holds of a part of the surroundings that
conversions leave as they found it: `Convert.SameWhere view P`. Going on and changing other parts of
the surroundings keeps the relation; what changes the part itself has to be looked at in each case.
-/

namespace Sharpen

namespace Convert

/-- Where the property holds of what is seen of the surroundings, both conversions do the same and
leave that part as it was. -/
def SameWhere {β : Type} (view : Surroundings → β) (P : β → Prop) {α : Type} (c d : Convert α) :
    Prop :=
  ∀ surroundings : Surroundings, P (view surroundings) →
    c surroundings = d surroundings ∧ view (c surroundings).2 = view surroundings

namespace SameWhere

variable {α β γ : Type} {view : Surroundings → γ} {P Q : γ → Prop} {c d : Convert α}

theorem mono (h : SameWhere view P c d) (himp : ∀ seen, Q seen → P seen) : SameWhere view Q c d :=
  fun surroundings hview => h surroundings (himp _ hview)

theorem bind {f g : α → Convert β} (hc : SameWhere view P c d)
    (hf : ∀ a, SameWhere view P (f a) (g a)) : SameWhere view P (c >>= f) (d >>= g) := by
  intro surroundings hview
  obtain ⟨heq, hkept⟩ := hc surroundings hview
  rw [Convert.run_bind, Convert.run_bind, ← heq]
  generalize c surroundings = run at hkept
  obtain ⟨result, after⟩ := run
  cases result with
  | error error => exact ⟨rfl, hkept⟩
  | ok a =>
    obtain ⟨heq, hlater⟩ := hf a after (hkept ▸ hview)
    exact ⟨heq, hlater.trans hkept⟩

/-- A change to the rest of the surroundings. -/
theorem within {change restore : Surroundings → Surroundings} (hc : SameWhere view P c d)
    (hchange : ∀ s, view (change s) = view s) (hrestore : ∀ s, view (restore s) = view s) :
    SameWhere view P (Convert.within change restore c) (Convert.within change restore d) := by
  intro surroundings hview
  obtain ⟨heq, hkept⟩ := hc (change surroundings) (by rwa [hchange])
  unfold Convert.within
  rw [← heq]
  generalize c (change surroundings) = run at hkept
  obtain ⟨_, after⟩ := run
  exact ⟨rfl, (hrestore after).trans (hkept.trans (hchange surroundings))⟩

theorem bindingHead (hc : SameWhere view P c d)
    (hflag : ∀ s flag, view { s with atBindingHead := flag } = view s) :
    SameWhere view P (Convert.bindingHead c) (Convert.bindingHead d) := by
  intro surroundings hview
  obtain ⟨heq, hkept⟩ := hc { surroundings with atBindingHead := true } (by rwa [hflag])
  unfold Convert.bindingHead
  rw [← heq]
  exact ⟨rfl, (hflag _ _).trans (hkept.trans (hflag _ _))⟩

end SameWhere

end Convert

end Sharpen

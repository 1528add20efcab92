import Mathlib.Data.List.Forall2
import Sharpen.Proofs.Correspondence.Basic

/-!
# What a conversion can give

`c.Gives a` says that the conversion `c` gives the result `a` in some surroundings. A conversion
that is put together from others gives what its parts give, put together: one lemma for each
building block takes a result apart, and from then on nobody has to look into a run. `c.Ensures Q`
says that whatever `c` gives has the property `Q`; its lemmas put such facts together along the
steps of a rule.
-/

/-- What stands on the right of a list of pairs has a partner on the left. -/
theorem List.Forall₂.exists_left {α β : Type} {R : α → β → Prop} {items : List α} {results : List β}
    (h : Forall₂ R items results) {result : β} (hresult : result ∈ results) :
    ∃ item ∈ items, R item result := by
  induction h with
  | nil => cases hresult
  | cons hfirst hrest ih =>
    obtain rfl | hresult := mem_cons.mp hresult
    · exact ⟨_, mem_cons_self .., hfirst⟩
    · obtain ⟨item, hitem, hrel⟩ := ih hresult
      exact ⟨item, mem_cons_of_mem _ hitem, hrel⟩

/-- The results of a list of computations that may fail. -/
theorem List.forall₂_of_mapM_ok {ε α β : Type} {f : α → Except ε β} {items : List α}
    {results : List β} (h : items.mapM f = .ok results) :
    Forall₂ (fun item result => f item = .ok result) items results := by
  induction items generalizing results with
  | nil =>
    obtain rfl := Except.ok.inj h
    exact .nil
  | cons item rest ih =>
    rw [mapM_cons] at h
    simp only [bind, Except.bind, pure, Except.pure] at h
    split at h
    · cases h
    · next hfirst =>
      split at h
      · cases h
      · next hothers =>
        obtain rfl := Except.ok.inj h
        exact .cons hfirst (ih hothers)

namespace Sharpen

open List

namespace Convert

/-- In some surroundings the conversion succeeds with this result. -/
def Gives {α : Type} (c : Convert α) (a : α) : Prop :=
  ∃ surroundings, (c surroundings).1 = .ok a

variable {α β : Type}

@[simp] theorem gives_ofExcept {result : Except ConversionError α} {a : α} :
    (ofExcept result).Gives a ↔ result = .ok a :=
  ⟨fun ⟨_, h⟩ => h, fun h => ⟨{}, h⟩⟩

@[simp] theorem gives_pure {a b : α} : Gives (pure a) b ↔ a = b :=
  ⟨fun ⟨_, h⟩ => Except.ok.inj h, fun h => ⟨{}, congrArg Except.ok h⟩⟩

@[simp] theorem not_gives_unsupported {kind reason : String} {a : α} :
    ¬ Gives (unsupported kind reason) a :=
  fun ⟨_, h⟩ => nomatch h

@[simp] theorem not_gives_unimplemented {kind : String} {a : α} : ¬ Gives (unimplemented kind) a :=
  fun ⟨_, h⟩ => nomatch h

namespace Gives

variable {c : Convert α} {a : α}

theorem bind {f : α → Convert β} {b : β} (h : (c >>= f).Gives b) :
    ∃ a, c.Gives a ∧ (f a).Gives b := by
  obtain ⟨surroundings, hrun⟩ := h
  obtain ⟨a, after, hfirst, hrest⟩ := ok_of_bind hrun
  exact ⟨a, ⟨surroundings, congrArg Prod.fst hfirst⟩, after, hrest⟩

theorem pure {b : α} (h : Gives (pure a) b) : a = b :=
  gives_pure.mp h

theorem ofExcept {result : Except ConversionError α} (h : (ofExcept result).Gives a) :
    result = .ok a :=
  gives_ofExcept.mp h

theorem unsupported {kind reason : String} (h : Gives (unsupported kind reason) a) : False :=
  not_gives_unsupported h

theorem unimplemented {kind : String} (h : Gives (unimplemented kind) a) : False :=
  not_gives_unimplemented h

/-- A result that is only put into a form. -/
theorem map {f : α → β} {b : β} (h : Gives (do return f (← c)) b) : ∃ a, c.Gives a ∧ b = f a := by
  obtain ⟨a, ha, hb⟩ := h.bind
  exact ⟨a, ha, (gives_pure.mp hb).symm⟩

/-- The results of a list of conversions. -/
theorem mapM {f : α → Convert β} {items : List α} {results : List β}
    (h : Gives (items.mapM f) results) :
    Forall₂ (fun item result => (f item).Gives result) items results := by
  induction items generalizing results with
  | nil =>
    obtain rfl := gives_pure.mp h
    exact .nil
  | cons item rest ih =>
    rw [mapM_cons] at h
    obtain ⟨_, hfirst, h⟩ := h.bind
    obtain ⟨_, hothers, rfl⟩ := h.map
    exact .cons hfirst (ih hothers)

theorem of_within {change restore : Surroundings → Surroundings}
    (h : (Convert.within change restore c).Gives a) : c.Gives a := by
  obtain ⟨surroundings, hrun⟩ := h
  exact ⟨change surroundings, hrun⟩

theorem of_nested (h : (Convert.nested c).Gives a) : c.Gives a :=
  of_within h

theorem of_bindingHead (h : (Convert.bindingHead c).Gives a) : c.Gives a := by
  obtain ⟨_, hrun⟩ := h
  exact ⟨_, hrun⟩

end Gives

/-- Whatever a conversion gives has a property. -/
def Ensures (c : Convert α) (Q : α → Prop) : Prop :=
  ∀ a, c.Gives a → Q a

namespace Ensures

variable {c : Convert α} {R : α → Prop} {Q : β → Prop}

theorem pure {a : α} (h : R a) : Ensures (pure a) R := by
  intro b hb
  obtain rfl := hb.pure
  exact h

theorem bind {f : α → Convert β} (h : c.Ensures R) (hrest : ∀ a, R a → (f a).Ensures Q) :
    (c >>= f).Ensures Q := by
  intro b hb
  obtain ⟨a, ha, hb⟩ := hb.bind
  exact hrest a (h a ha) b hb

theorem map {f : α → β} (h : c.Ensures R) (hform : ∀ a, R a → Q (f a)) :
    Ensures (do return f (← c)) Q :=
  h.bind fun a ha => .pure (hform a ha)

theorem pure_bind {f : α → Convert β} {a : α} (h : (f a).Ensures Q) :
    Ensures (Pure.pure a >>= f) Q :=
  bind (pure (R := (· = a)) rfl) fun _ heq => heq ▸ h

theorem ofExcept {result : Except ConversionError α} (h : ∀ a, result = .ok a → R a) :
    (ofExcept result).Ensures R :=
  fun a ha => h a ha.ofExcept

theorem unsupported {kind reason : String} : (unsupported kind reason).Ensures R :=
  fun _ h => h.unsupported.elim

theorem unimplemented {kind : String} : (unimplemented kind).Ensures R :=
  fun _ h => h.unimplemented.elim

theorem bindingHead (h : c.Ensures R) : (Convert.bindingHead c).Ensures R :=
  fun a ha => h a ha.of_bindingHead

theorem trivial : c.Ensures fun _ => True :=
  fun _ _ => True.intro

/-- The results of a list of conversions. -/
theorem mapM {f : α → Convert β} {items : List α} (h : ∀ item ∈ items, (f item).Ensures Q) :
    Ensures (items.mapM f) fun results => ∀ result ∈ results, Q result := by
  intro results hresults result hmem
  obtain ⟨item, hitem, hgives⟩ := hresults.mapM.exists_left hmem
  exact h item hitem result hgives

end Ensures

end Convert

/-- Statements of a body become these, each one what it is converted to. -/
def Inner.Converts (inner : Inner) (body : Body) (statements : List Source.Statement)
    (converted : List Target.Statement) : Prop :=
  ∃ lists, Forall₂ (fun statement list => (inner.statement body statement).Gives list)
    statements lists ∧ converted = lists.flatten

theorem Convert.Gives.converts {inner : Inner} {body : Body} {statements : List Source.Statement}
    {converted : List Target.Statement} (h : (inner.statements body statements).Gives converted) :
    inner.Converts body statements converted := by
  obtain ⟨lists, hlists, rfl⟩ := h.map
  exact ⟨lists, hlists.mapM, rfl⟩

/-- What holds of whatever the statements are converted to, one by one. -/
theorem Inner.Converts.forall_mem {inner : Inner} {body : Body} {statements : List Source.Statement}
    {converted : List Target.Statement} {P : Target.Statement → Prop}
    (h : inner.Converts body statements converted)
    (hparts : ∀ part ∈ statements, ∀ list, (inner.statement body part).Gives list →
      ∀ statement ∈ list, P statement) :
    ∀ statement ∈ converted, P statement := by
  obtain ⟨_, hlists, rfl⟩ := h
  intro statement hmem
  obtain ⟨list, hlist, hmem⟩ := mem_flatten.mp hmem
  obtain ⟨part, hpart, hgives⟩ := hlists.exists_left hlist
  exact hparts part hpart list hgives statement hmem

end Sharpen

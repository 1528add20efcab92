import Sharpen.Convert.Modifier

/-!
# Modifiers by where they stand

What the modifiers of a declaration become is read off the site they stand at: each of them becomes
a token or nothing (`Source.Modifier.target?`), and the tokens stand in the order in which they
first come up (`convertFrom_eq`), with `public` before them or `static` behind them where the site
asks for it. From this follows what each site guarantees: a member of a module is shared, a member
of an interface has no visibility, and a member of a class or structure has one.

The main result is `modifiers_are_well_formed`.
-/

namespace Sharpen

open List

namespace Source.Modifier

variable {site : ModifierSite} {modifier : Modifier} {token : Target.Modifier}

/-- What a modifier becomes at a site, if anything. In an interface visibility becomes nothing. -/
def target? (site : ModifierSite) (modifier : Modifier) : Option Target.Modifier :=
  if site = .memberInInterface && modifier.isVisibility then none
  else (modifier.convert site).toOption.join

/-- Only `Static` is declined. -/
theorem exists_convert (site : ModifierSite) (h : modifier ≠ .static) :
    ∃ token?, modifier.convert site = .ok token? := by
  cases modifier with
  | static => exact absurd rfl h
  | _ => exact ⟨_, rfl⟩

/-- Visibility is what becomes accessibility. -/
theorem isAccessibility_target (h : modifier.target? site = some token) :
    token.isAccessibility = modifier.isVisibility := by
  unfold target? at h
  split at h
  · cases h
  cases modifier with
  | readOnly =>
    by_cases hsite : site = .variableOrConst
    · rw [convert, if_pos hsite] at h
      cases h
      rfl
    · rw [convert, if_neg hsite] at h
      cases h
  | _ => cases h <;> rfl

/-- Outside of interfaces no visibility is left out. -/
theorem exists_target (hsite : site ≠ .memberInInterface) (h : modifier.isVisibility) :
    ∃ token, modifier.target? site = some token := by
  rw [target?, if_neg (by simp [hsite])]
  cases modifier with
  | «public» | «private» | «protected» | friend => exact ⟨_, rfl⟩
  | _ => cases h

/-- What is left of visibility in an interface. -/
theorem not_isVisibility_of_target (h : modifier.target? .memberInInterface = some token) :
    modifier.isVisibility = false := by
  cases hvisible : modifier.isVisibility with
  | false => rfl
  | true =>
    rw [target?, if_pos (by simpa using hvisible)] at h
    cases h

end Source.Modifier

namespace Modifiers

variable (site : ModifierSite) {modifiers : List Source.Modifier} {converted : List Target.Modifier}

/-- What modifiers become at a site, one by one. -/
def tokens (modifiers : List Source.Modifier) : List Target.Modifier :=
  modifiers.filterMap (·.target? site)

/-- Modifiers are added if they are new, so that the first ones stay. -/
theorem foldl_add (done tokens : List Target.Modifier) :
    tokens.foldl add done.eraseDups = (done ++ tokens).eraseDups := by
  induction tokens generalizing done with
  | nil => rw [foldl_nil, append_nil]
  | cons token rest ih =>
    have hadd : add done.eraseDups token = (done ++ [token]).eraseDups := by
      by_cases hthere : token ∈ done <;> simp [add, eraseDups_append, List.removeAll,
        eraseDups_cons, hthere]
    rw [foldl_cons, hadd, ih, append_assoc, singleton_append]

theorem nodup_foldl_add {done : List Target.Modifier} (h : done.Nodup)
    (tokens : List Target.Modifier) :
    (tokens.foldl add done).Nodup := by
  induction tokens generalizing done with
  | nil => exact h
  | cons token rest ih =>
    refine ih ?_
    unfold add
    split
    · exact h
    · next hnew =>
      refine nodup_append.mpr ⟨h, pairwise_singleton _ _,
        fun other hother last hlast heq => hnew ?_⟩
      rw [← mem_singleton.mp hlast, ← heq]
      exact contains_iff_mem.mpr hother

/-- `Static` is declined wherever it stands; without it all modifiers become their tokens. -/
theorem convertFrom_eq (done : List Target.Modifier) (modifiers : List Source.Modifier) :
    convertFrom site done modifiers = if .static ∈ modifiers
      then .error (.unsupported "StaticKeyword" "static local variables have no C# equivalent")
      else .ok ((tokens site modifiers).foldl add done) := by
  induction modifiers generalizing done with
  | nil => rfl
  | cons modifier rest ih =>
    by_cases hstatic : modifier = .static
    · subst hstatic
      simp [convertFrom, Source.Modifier.isVisibility, Source.Modifier.convert]
    · obtain ⟨token?, htoken⟩ := modifier.exists_convert site hstatic
      have hrest : .static ∈ modifier :: rest ↔ .static ∈ rest := by
        simp [Ne.symm hstatic]
      rw [convertFrom, tokens, filterMap_cons, Source.Modifier.target?, htoken]
      simp only [hrest]
      split
      · exact ih done
      · cases token? with
        | none => exact ih done
        | some token => exact ih (add done token)

/-- `public`, where a declaration is public without saying so. -/
def leading (modifiers : List Source.Modifier) : List Target.Modifier :=
  if site.defaultsToPublic && !modifiers.any (·.isVisibility) then [.public] else []

/-- `static`, where a declaration is shared without saying so. -/
def trailing (modifiers : List Source.Modifier) : List Target.Modifier :=
  if site = .memberInModule && !isShared (tokens site modifiers) then [.static] else []

theorem foldl_add_leading (modifiers : List Source.Modifier) :
    (tokens site modifiers).foldl add (leading site modifiers) =
      leading site modifiers ++ (tokens site modifiers).eraseDups := by
  unfold leading
  split
  · next hpublic =>
    have hkept : (tokens site modifiers).removeAll [.public] = tokens site modifiers := by
      refine filter_eq_self.mpr fun token htoken => ?_
      obtain ⟨modifier, hmodifier, htarget⟩ := mem_filterMap.mp htoken
      have hvisible := Source.Modifier.isAccessibility_target htarget
      simp only [Bool.and_eq_true, Bool.not_eq_true', any_eq_false] at hpublic
      rw [Bool.eq_false_iff.mpr (hpublic.2 modifier hmodifier)] at hvisible
      cases token with
      | «public» => cases hvisible
      | _ => rfl
    have hfirst := foldl_add [.public] (tokens site modifiers)
    rwa [eraseDups_append, hkept] at hfirst
  · exact foldl_add [] _

/-- The tokens in the order in which they first come up, and what the site puts around them. -/
theorem convert_eq (modifiers : List Source.Modifier) :
    convert site modifiers = if .static ∈ modifiers
    then .error (.unsupported "StaticKeyword" "static local variables have no C# equivalent")
    else .ok (leading site modifiers ++ (tokens site modifiers).eraseDups ++
      trailing site modifiers) := by
  have hshared : isShared (leading site modifiers ++ (tokens site modifiers).eraseDups) =
      isShared (tokens site modifiers) := by
    unfold leading
    split <;> simp [isShared]
  rw [convert, ← leading, convertFrom_eq]
  split
  · rfl
  · rw [foldl_add_leading]
    change Except.ok (if site = .memberInModule && !isShared _ then _ else _) = _
    rw [hshared, trailing]
    split <;> simp

/-! ## What the sites guarantee -/

section Converted

variable {site} (h : convert site modifiers = .ok converted)
include h

theorem eq_of_convert :
    converted = leading site modifiers ++ (tokens site modifiers).eraseDups ++
      trailing site modifiers := by
  rw [convert_eq] at h
  split at h
  · cases h
  · exact (Except.ok.inj h).symm

theorem nodup_convert : converted.Nodup := by
  have hleading : (leading site modifiers).Nodup ∧ .static ∉ leading site modifiers := by
    unfold leading
    split <;> simp
  have hadded := nodup_foldl_add hleading.1 (tokens site modifiers)
  rw [foldl_add_leading] at hadded
  rw [eq_of_convert h]
  refine nodup_append.mpr ⟨hadded, ?_⟩
  unfold trailing
  split
  · next hshared =>
    simp only [isShared, Bool.and_eq_true, Bool.not_eq_true', Bool.or_eq_false_iff, contains_eq_mem,
      decide_eq_false_iff_not] at hshared
    refine ⟨pairwise_singleton _ _, fun token htoken last hlast heq => ?_⟩
    rw [heq, mem_singleton.mp hlast, mem_append, mem_eraseDups] at htoken
    exact htoken.elim hleading.2 hshared.2.1
  · exact ⟨.nil, fun _ _ _ hlast => nomatch hlast⟩

/-- Where members are public by default, a member says who may see it. -/
theorem exists_isAccessibility_convert (hsite : site.defaultsToPublic) :
    ∃ token ∈ converted, token.isAccessibility := by
  cases hvisible : modifiers.any (·.isVisibility) with
  | false => exact ⟨.public, by simp [eq_of_convert h, leading, hsite, hvisible], rfl⟩
  | true =>
    obtain ⟨modifier, hmem, hmodifier⟩ := any_eq_true.mp hvisible
    have hinterface : site ≠ .memberInInterface := by
      rintro rfl
      cases hsite
    obtain ⟨token, htarget⟩ := Source.Modifier.exists_target hinterface hmodifier
    have htoken : token ∈ tokens site modifiers := mem_filterMap.mpr ⟨modifier, hmem, htarget⟩
    refine ⟨token, by simp [eq_of_convert h, htoken], ?_⟩
    rw [Source.Modifier.isAccessibility_target htarget, hmodifier]

end Converted

/-- A member of an interface has no visibility. -/
theorem not_isAccessibility_convert (h : convert .memberInInterface modifiers = .ok converted) :
    ∀ token ∈ converted, ¬ token.isAccessibility := by
  intro token htoken haccess
  rw [eq_of_convert h] at htoken
  obtain ⟨modifier, -, htarget⟩ :
      ∃ modifier ∈ modifiers, modifier.target? .memberInInterface = some token := by
    simpa [leading, trailing, ModifierSite.defaultsToPublic, tokens] using htoken
  rw [Source.Modifier.isAccessibility_target htarget,
    Source.Modifier.not_isVisibility_of_target htarget] at haccess
  cases haccess

/-- A member of a module is shared. -/
theorem isShared_convert (h : convert .memberInModule modifiers = .ok converted) :
    isShared converted := by
  rw [eq_of_convert h]
  cases hshared : isShared (tokens .memberInModule modifiers) with
  | false =>
    rw [trailing, if_pos (by simp [hshared])]
    simp [isShared]
  | true =>
    simp only [isShared, Bool.or_eq_true, contains_iff_mem, mem_append, mem_eraseDups] at hshared ⊢
    exact hshared.imp (fun h => .inl (.inr h)) fun h => .inl (.inr h)

/-- **Modifiers are well-formed.** A list with `Static` is declined, and no other. What a list
becomes has no duplicates: it is what the modifiers become at the site, in the order in which that
first comes up, with `public` in front of it if the site asks for that and the list says nothing
about visibility, and `static` behind it on a member of a module that is not shared otherwise. So a
member of a class, structure or module, or of nothing, has a visibility, a member of an interface
has none, and a member of a module is shared. -/
theorem modifiers_are_well_formed (site : ModifierSite) (modifiers : List Source.Modifier) :
    ((∃ error, convert site modifiers = .error error) ↔ .static ∈ modifiers) ∧
    ∀ converted, convert site modifiers = .ok converted → converted.Nodup ∧
      converted = leading site modifiers ++ (tokens site modifiers).eraseDups ++
        trailing site modifiers ∧
      (site ∈ [.member, .memberInClass, .memberInStruct, .memberInModule] →
        ∃ token ∈ converted, token.isAccessibility) ∧
      (site = .memberInInterface → ∀ token ∈ converted, ¬ token.isAccessibility) ∧
      (site = .memberInModule → .static ∈ converted ∨ .const ∈ converted) := by
  refine ⟨?_, fun converted h => ⟨nodup_convert h, eq_of_convert h, fun hsite =>
    exists_isAccessibility_convert h ?_,
    fun hsite => not_isAccessibility_convert (hsite ▸ h), fun hsite => ?_⟩⟩
  · rw [convert_eq]
    split <;> simp [*]
  · simp only [mem_cons, not_mem_nil, or_false] at hsite
    obtain rfl | rfl | rfl | rfl := hsite <;> rfl
  · simpa [isShared] using isShared_convert (hsite ▸ h)

theorem modifiers_of_a_member_of_a_module :
    convert .memberInModule [.notOverridable, .friend, .notInheritable, .friend] =
      .ok [.sealed, .internal, .static] ∧ [Target.Modifier.sealed, .internal, .static].Nodup :=
  ⟨rfl, ((modifiers_are_well_formed .memberInModule _).2 _
    (rfl : convert _ [.notOverridable, .friend, .notInheritable, .friend] = _)).1⟩

end Modifiers

end Sharpen

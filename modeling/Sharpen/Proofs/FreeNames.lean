import Mathlib.Data.Finset.Card
import Std.Data.String.ToNat
import Sharpen.Convert.Receiver

/-!
# The first free name

The names that are tried for a variable are the base, and the base with `1`, `2` and so on behind
it, no two of them the same. The one that is chosen is the first that nobody has, and there is one
unless more names are taken than there are numbers to try. The main result is
`first_free_name_is_chosen`.
-/

namespace Sharpen

open List

/-- The names that are tried, by their number: the base itself is the name with the number `0`. -/
def numberedName (base : String) : Nat → String
  | 0 => base
  | n + 1 => base ++ toString (n + 1)

theorem candidateNames_eq (base : String) :
    candidateNames base = (List.range (uniqueNameLimit + 1)).map (numberedName base) := by
  rw [range_succ_eq_map, map_cons, map_map]
  rfl

theorem numberedName_injective (base : String) : Function.Injective (numberedName base) := by
  have hbase : ∀ n : Nat, base ≠ base ++ toString n := by
    intro n h
    have hlength := congrArg String.length h
    rw [String.length_append] at hlength
    have hdigits : 0 < (toString n).length := Nat.length_repr_pos
    omega
  intro m n h
  match m, n with
  | 0, 0 => rfl
  | 0, n + 1 => exact absurd h (hbase _)
  | m + 1, 0 => exact absurd h.symm (hbase _)
  | m + 1, n + 1 => exact Nat.repr_injective (String.append_right_inj base |>.mp h)

/-- The number of the name that is chosen, if there is one. -/
theorem uniqueName_eq (receivers : List String) (base : String) (reserved : List String) :
    uniqueName receivers base reserved =
      match (List.range (uniqueNameLimit + 1)).find? fun n =>
        numberedName base n ∉ receivers ++ reserved with
      | some n => .ok (numberedName base n)
      | none =>
        .error (.unsupported "WithBlock" ("no free name for the " ++ base ++ " temporary")) := by
  have hfree : (fun name => !(Std.HashSet.ofList (receivers ++ reserved)).contains name) ∘
    numberedName base =
      fun n => decide (numberedName base n ∉ receivers ++ reserved) := by
    funext n
    simp
  unfold uniqueName
  dsimp only
  rw [candidateNames_eq, List.find?_map, hfree]
  cases (List.range (uniqueNameLimit + 1)).find? fun n => numberedName base n ∉ receivers ++
    reserved <;> rfl

theorem uniqueName_eq_ok_iff {receivers reserved : List String} {base name : String} :
    uniqueName receivers base reserved = .ok name ↔
      ∃ n ≤ uniqueNameLimit, name = numberedName base n ∧ name ∉ receivers ++ reserved ∧
        ∀ m < n, numberedName base m ∈ receivers ++ reserved := by
  rw [uniqueName_eq]
  constructor
  · intro h
    split at h
    · next n hfind =>
      obtain rfl := Except.ok.inj h
      obtain ⟨hfree, hn, hbefore⟩ := List.find?_range_eq_some.mp hfind
      exact ⟨n, Nat.lt_succ_iff.mp (mem_range.mp hn),
        rfl, by simpa using hfree, by simpa using hbefore⟩
    · cases h
  · rintro ⟨n, hn, rfl, hfree, hbefore⟩
    have hfind :
      (List.range (uniqueNameLimit + 1)).find? (fun n =>
        numberedName base n ∉ receivers ++ reserved) =
        some n := by
      refine List.find?_range_eq_some.mpr ⟨?_, mem_range.mpr (Nat.lt_succ_iff.mpr hn), ?_⟩
      · simpa using hfree
      · simpa using hbefore
    rw [hfind]

theorem uniqueName_eq_error_iff {receivers reserved : List String} {base : String}
    {error : ConversionError} :
    uniqueName receivers base reserved = .error error ↔
      error = .unsupported "WithBlock" ("no free name for the " ++ base ++ " temporary") ∧
        ∀ n ≤ uniqueNameLimit, numberedName base n ∈ receivers ++ reserved := by
  rw [uniqueName_eq]
  cases hfind : (List.range (uniqueNameLimit + 1)).find? fun n =>
    numberedName base n ∉ receivers ++ reserved with
  | some n =>
    obtain ⟨hfree, hn, -⟩ := List.find?_range_eq_some.mp hfind
    refine iff_of_false nofun fun h => ?_
    exact of_decide_eq_true hfree (h.2 n (Nat.lt_succ_iff.mp (mem_range.mp hn)))
  | none =>
    have hall : ∀ n ≤ uniqueNameLimit, numberedName base n ∈ receivers ++ reserved := by
      intro n hn
      simpa using List.find?_range_eq_none.mp hfind n (Nat.lt_succ_iff.mpr hn)
    exact ⟨fun h => ⟨(Except.error.inj h).symm, hall⟩, fun h => congrArg _ h.1.symm⟩

/-- The name that is chosen is none of those that are taken. -/
theorem not_mem_of_uniqueName {receivers reserved : List String} {base name : String}
    (h : uniqueName receivers base reserved = .ok name) : name ∉ receivers ∧ name ∉ reserved := by
  obtain ⟨_, _, _, hfree, _⟩ := uniqueName_eq_ok_iff.mp h
  exact not_or.mp (mt mem_append.mpr hfree)

/-- More names are taken than there are numbers when every name that is tried is one of them. -/
theorem lt_card_of_all_taken {names : List String} {base : String} {limit : Nat}
    (h : ∀ n ≤ limit, numberedName base n ∈ names) : limit < names.toFinset.card := by
  have hsubset : (Finset.range (limit + 1)).image (numberedName base) ⊆ names.toFinset := by
    intro name hname
    obtain ⟨n, hn, rfl⟩ := Finset.mem_image.mp hname
    exact mem_toFinset.mpr (h n (Nat.lt_succ_iff.mp (Finset.mem_range.mp hn)))
  have hcard := Finset.card_le_card hsubset
  rw [Finset.card_image_of_injective _ (numberedName_injective base), Finset.card_range] at hcard
  exact hcard

/-- The name for a variable is the first of the base, the base with `1` behind it, and so on up to
`10000`, that is neither the variable of a block around it nor reserved. There is none exactly when
all of these names, which differ from each other, are taken; so there is one whenever at most
`10000` names are taken. -/
theorem first_free_name_is_chosen (receivers : List String) (base : String)
    (reserved : List String) :
    (∀ name, uniqueName receivers base reserved = .ok name ↔
      ∃ n ≤ 10000, name = numberedName base n ∧ (name ∉ receivers ∧ name ∉ reserved) ∧
        ∀ m < n, numberedName base m ∈ receivers ∨ numberedName base m ∈ reserved) ∧
    ((∃ error, uniqueName receivers base reserved = .error error) ↔
      ∀ n ≤ 10000, numberedName base n ∈ receivers ∨ numberedName base n ∈ reserved) ∧
    (numberedName base).Injective ∧
    ((receivers ++ reserved).toFinset.card ≤ 10000 → ∃ name, uniqueName receivers base reserved =
      .ok name) := by
  simp only [← not_or, ← mem_append]
  refine ⟨fun name => uniqueName_eq_ok_iff, ?_, numberedName_injective base, fun hcard => ?_⟩
  · simp only [uniqueName_eq_error_iff, exists_eq_left]
    rfl
  · cases hname : uniqueName receivers base reserved with
    | ok name => exact ⟨name, rfl⟩
    | error error =>
      have htaken := lt_card_of_all_taken (uniqueName_eq_error_iff.mp hname).2
      exact absurd hcard (Nat.not_le.mpr htaken)

/-- The base is the variable of a block around it, and the name with `1` behind it is reserved. -/
theorem third_name_is_chosen :
    (["withBlock"] ++ ["withBlock1"]).toFinset.card ≤ 10000 ∧
      uniqueName ["withBlock"] "withBlock" ["withBlock1"] = .ok "withBlock2" ∧
      ∃ name, uniqueName ["withBlock"] "withBlock" ["withBlock1"] = .ok name := by
  obtain ⟨hfirst, -, -, hexists⟩ :=
    first_free_name_is_chosen ["withBlock"] "withBlock" ["withBlock1"]
  have hcard : (["withBlock"] ++ ["withBlock1"]).toFinset.card ≤ 10000 := by decide
  refine ⟨hcard, (hfirst _).mpr ⟨2, by decide, by rfl, by decide, ?_⟩, hexists hcard⟩
  intro m hm
  match m, hm with
  | 0, _ => decide
  | 1, _ => decide

end Sharpen

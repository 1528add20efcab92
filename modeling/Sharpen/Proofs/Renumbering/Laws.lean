import Mathlib.Logic.Function.Basic
import Sharpen.Proofs.Renumbering.Tree

/-!
# Which numbers make a difference

A number occurs in a unit if it makes a difference which number it becomes
(`CompilationUnit.Mentions`). What the other numbers become makes no difference
(`CompilationUnit.renumber_congr`), so they can all become one that occurs
(`CompilationUnit.occurring`).
-/

namespace Sharpen.Source

open List

/-- A number occurs in a unit if it makes a difference to the unit which number it becomes. -/
def CompilationUnit.Mentions (unit : CompilationUnit) (n : NodeId) : Prop :=
  ∃ f g : NodeId → NodeId, (∀ m, m ≠ n → f m = g m) ∧ unit.renumber f ≠ unit.renumber g

theorem CompilationUnit.mentions_id (unit : CompilationUnit) : unit.Mentions unit.id := by
  refine ⟨fun n => n, fun n => if n = unit.id then n + 1 else n, fun m hm => ?_, fun heq => ?_⟩
  · exact (if_neg hm).symm
  · have hid := congrArg CompilationUnit.id heq
    change unit.id = if unit.id = unit.id then unit.id + 1 else unit.id at hid
    rw [if_pos rfl] at hid
    simp at hid

/-- All numbers, in their order. -/
noncomputable def allNodes : List NodeId :=
  (List.range UInt32.size).map UInt32.ofNat

theorem mem_allNodes (n : NodeId) : n ∈ allNodes :=
  mem_map.mpr ⟨n.toNat, mem_range.mpr n.toNat_lt, UInt32.ofNat_toNat⟩

theorem pairwise_allNodes : allNodes.Pairwise (· < ·) := by
  refine pairwise_map.mpr (pairwise_lt_range.imp_of_mem fun {a b} ha hb hlt => ?_)
  rw [mem_range] at ha hb
  rwa [UInt32.lt_iff_toNat_lt, UInt32.toNat_ofNat_of_lt' ha, UInt32.toNat_ofNat_of_lt' hb]

/-- Which numbers the other ones become makes no difference: they can be changed one after the
other. -/
theorem CompilationUnit.renumber_congr {unit : CompilationUnit} {f g : NodeId → NodeId}
    (h : ∀ n, unit.Mentions n → f n = g n) : unit.renumber f = unit.renumber g := by
  have hchange : ∀ (numbers : List NodeId) (f : NodeId → NodeId), (∀ n, n ∉ numbers → f n = g n) →
      (∀ n, unit.Mentions n → f n = g n) → unit.renumber f = unit.renumber g := by
    intro numbers
    induction numbers with
    | nil =>
      intro f hout _
      rw [show f = g from funext fun n => hout n (not_mem_nil)]
    | cons first rest ih =>
      intro f hout hmentioned
      have hstep : unit.renumber f = unit.renumber (Function.update f first (g first)) := by
        by_cases hfirst : unit.Mentions first
        · rw [← hmentioned first hfirst, Function.update_eq_self]
        · by_contra hne
          exact hfirst ⟨f, _, fun m hm => (Function.update_of_ne hm _ _).symm, hne⟩
      rw [hstep]
      refine ih _ (fun n hn => ?_) fun n hn => ?_
      · by_cases hfirst : n = first
        · rw [hfirst, Function.update_self]
        · rw [Function.update_of_ne hfirst]
          exact hout n (by simp [hfirst, hn])
      · by_cases hfirst : n = first
        · rw [hfirst, Function.update_self]
        · rw [Function.update_of_ne hfirst]
          exact hmentioned n hn
  exact hchange allNodes f (fun n hn => absurd (mem_allNodes n) hn) h

open Classical in
/-- A number that occurs stays, and any other one becomes the number of the unit. -/
noncomputable def CompilationUnit.occurring (unit : CompilationUnit) (n : NodeId) : NodeId :=
  if unit.Mentions n then n else unit.id

theorem CompilationUnit.mentions_occurring (unit : CompilationUnit) (n : NodeId) :
    unit.Mentions (unit.occurring n) := by
  unfold CompilationUnit.occurring
  split
  · assumption
  · exact unit.mentions_id

theorem CompilationUnit.renumber_occurring (unit : CompilationUnit) (f : NodeId → NodeId) :
    unit.renumber (fun n => f (unit.occurring n)) = unit.renumber f :=
  CompilationUnit.renumber_congr fun _ hn => congrArg f (if_pos hn)

end Sharpen.Source

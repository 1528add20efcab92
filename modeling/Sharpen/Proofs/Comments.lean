import Sharpen.Convert.Attach

/-!
# Attached comments

Comments are attached as wrappers, so what carries them stays what it was: under the comments the
statements are the same (`map_uncommented_attachStatements`). The header of a block is the one
exception: over no statements at all its comments go to an empty statement.
-/

namespace Sharpen

open List

open Target (Statement)

namespace Target.Statement

@[simp] theorem uncommented_withTrivia (statement : Statement) (trivia : Trivia) :
    (statement.withTrivia trivia).uncommented = statement.uncommented := by
  unfold withTrivia
  split <;> rfl

@[simp] theorem uncommented_addTrivia (trivia : Trivia) (statement : Statement) :
    (statement.addTrivia trivia).uncommented = statement.uncommented := by
  unfold addTrivia
  split
  · rfl
  · exact uncommented_withTrivia _ _

end Target.Statement

theorem map_uncommented_attachLast (trailing : Option String) (statements : List Statement) :
    (attachLast Statement.addTrivia trailing statements).map Statement.uncommented =
      statements.map Statement.uncommented := by
  fun_induction attachLast Statement.addTrivia trailing statements with
  | case1 => rfl
  | case2 => simp only [map_cons, map_nil, Statement.uncommented_addTrivia]
  | case3 _ _ _ ih => rw [map_cons, map_cons, ih]

/-- Attached comments leave the statements under them alone. -/
@[simp] theorem map_uncommented_attachStatements (trivia : Trivia) (statements : List Statement) :
    (attachStatements trivia statements).map Statement.uncommented =
      statements.map Statement.uncommented := by
  unfold attachStatements attachTrivia
  split
  · rfl
  split
  · rfl
  · simp only [map_cons, map_nil, Statement.uncommented_addTrivia]
  · rw [map_cons, map_cons, Statement.uncommented_addTrivia, map_uncommented_attachLast]

/-- What is left to a node by some of the comments is left to all nodes by attaching them. -/
theorem forall_mem_attachTrivia {α : Type} {P : α → Prop} {add : Trivia → α → α} {trivia : Trivia}
    (hadd : ∀ added node, added.comments ⊆ trivia.comments → P node → P (add added node))
    {nodes : List α} (h : ∀ node ∈ nodes, P node) :
    ∀ node ∈ attachTrivia add trivia nodes, P node := by
  have hlast : ∀ nodes : List α, (∀ node ∈ nodes, P node) →
    ∀ node ∈ attachLast add trivia.trailing nodes, P node := by
    intro nodes
    fun_induction attachLast add trivia.trailing nodes with
    | case1 => exact id
    | case2 last =>
      intro h
      refine forall_mem_singleton.mpr (hadd _ _ ?_ (h last (mem_singleton_self _)))
      exact subset_append_right _ _
    | case3 _ _ _ ih =>
      intro h
      obtain ⟨hnode, hrest⟩ := forall_mem_cons.mp h
      exact forall_mem_cons.mpr ⟨hnode, ih hrest⟩
  unfold attachTrivia
  split
  · exact h
  · exact forall_mem_singleton.mpr (hadd _ _ (List.Subset.refl _) (h _ (mem_singleton_self _)))
  · obtain ⟨hfirst, hrest⟩ := forall_mem_cons.mp h
    refine forall_mem_cons.mpr ⟨hadd _ _ ?_ hfirst, hlast _ hrest⟩
    exact append_subset.mpr ⟨subset_append_left _ _, nil_subset _⟩

/-- The comments of a header leave the statements under them alone. -/
theorem map_uncommented_attachHeader (trivia : Trivia) {statements : List Statement}
    (h : statements ≠ []) :
    (attachHeader trivia statements).map Statement.uncommented =
      statements.map Statement.uncommented := by
  unfold attachHeader
  split
  · rfl
  dsimp only
  split
  · exact absurd rfl h
  · exact map_uncommented_attachStatements _ _

theorem Trivia.isEmpty_convert (trivia : Trivia) : trivia.convert.isEmpty = trivia.isEmpty := by
  obtain ⟨leading, trailing⟩ := trivia
  cases leading <;> cases trailing <;> rfl

/-- Over no statements the comments of a header go to an empty statement. -/
theorem attachHeader_nil (trivia : Trivia) :
    attachHeader trivia [] = [] ∨ ∃ header, attachHeader trivia [] =
      [.commented header .empty] := by
  unfold attachHeader
  split
  · exact .inl rfl
  · next hempty =>
    refine .inr ⟨_, congrArg (fun s => [s]) (if_neg ?_)⟩
    rw [Trivia.isEmpty_convert]
    obtain ⟨leading, trailing⟩ := trivia
    cases leading <;> cases trailing <;> exact hempty

end Sharpen

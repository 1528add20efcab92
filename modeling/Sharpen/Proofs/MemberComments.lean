import Sharpen.Proofs.CommentOrder
import Sharpen.Proofs.MemberImage

/-!
# Comments of member bodies

Which comments of its bodies a member keeps. Statements keep theirs at any depth, and the comments
of an accessor go around the statements of its body. Three kinds of comments are lost, since there
is no statement left to carry them:

* those of the call of another constructor, which moves to the head of the constructor
  (`behindChain`);
* those of an accessor whose body comes out empty (`MemberBody.isBare`);
* those of a declaration of no variables (`StatementKind.isSilent`).

`bodies_keep_comments` is exact: every other comment is there, converted, in order and in the body
it belongs to. A comment behind an accessor is joined to a comment behind its last statement.
-/

namespace Sharpen

open List

open Source (StatementKind Declaration Accessor)
open Target (Statement Member)

variable {converted statements : List Statement} {levels : Nat} {setting : Setting}

/-! ## Comments that are kept -/

/-- The comments of a body that are kept: those of a declaration of no variables are not. -/
abbrev Source.kept (statements : List Source.Statement) : List String :=
  Source.commentsUnless StatementKind.isSilent statements

/-- The comments of a statement that are kept. -/
abbrev Source.Statement.kept (statement : Source.Statement) : List String :=
  statement.commentsUnless StatementKind.isSilent

/-- Comments do not make up for missing statements. -/
theorem attachStatements_eq_nil_iff {trivia : Trivia} :
    attachStatements trivia statements = [] ↔ statements = [] := by
  have hsame := map_uncommented_attachStatements trivia statements
  constructor
  · intro hnil
    rw [hnil] at hsame
    exact map_eq_nil_iff.mp hsame.symm
  · rintro rfl
    exact map_eq_nil_iff.mp hsame

theorem conserves_kept_at (setting : Setting) (levels : Nat) :
    ∀ statement, (Inner.at setting levels).Conserves Source.Statement.kept statement := by
  refine Inner.statement_induction (fun {_ _ statement _} himage ih => ?_) levels
  unfold Source.Statement.kept Source.Statement.commentsUnless
  by_cases hsilent : statement.kind.isSilent
  · -- there is nothing to put the comments on
    rw [if_pos hsilent, attachStatements_eq_nil_iff.mpr (himage.eq_nil_iff.mpr hsilent),
      Target.comments_nil, map_nil]
  · rw [if_neg hsilent,
      himage.comments_attached (Bool.eq_false_iff.mpr hsilent) fun part _ => ih part,
      Source.StatementKind.commentsUnless_eq]

theorem Inner.Converts.comments_kept {body : Body} {source : List Source.Statement}
    (h : (Inner.at setting levels).Converts body source converted) :
    Target.comments converted = (Source.kept source).map Comment.convert := by
  rw [h.comments_read fun part _ => conserves_kept_at setting levels part, Source.kept,
    Source.commentsUnless_eq_flatMap]

/-! ## Comments around a body -/

/-- Comments with one more behind them: on its own, or joined to the last one. -/
def Trailed (comments : List String) (added : Option String) (result : List String) : Prop :=
  result = comments ++ added.toList ∨ ∃ before last text, comments = before ++ [last] ∧
    added = some text ∧
      result = before ++ [last ++ " " ++ text]

theorem Trailed.append_left {comments result : List String} {added : Option String}
    (before : List String) (h : Trailed comments added result) :
    Trailed (before ++ comments) added (before ++ result) := by
  obtain rfl | ⟨first, last, text, rfl, hadded, rfl⟩ := h
  · exact .inl (append_assoc ..).symm
  · exact .inr ⟨before ++ first, last, text, (append_assoc ..).symm, hadded, (append_assoc ..).symm⟩

theorem trailed_addTrivia (trivia : Trivia) (statement : Statement) :
    Trailed (trivia.leading ++ statement.comments) trivia.trailing
      (statement.addTrivia trivia).comments := by
  by_cases hplain : trivia.trailing = none ∨ statement.isCommented = false
  · exact .inl (comments_addTrivia hplain)
  -- the statement has comments of its own, and one comes behind them
  obtain ⟨hsome, hcommented⟩ := not_or.mp hplain
  obtain ⟨text, htext⟩ := Option.ne_none_iff_exists'.mp hsome
  cases statement with
  | commented existing inner =>
    rw [Statement.addTrivia, Statement.comments_commented, Statement.comments_commented,
      Trivia.around, htext]
    cases existing.trailing with
    | none => exact .inl (by simp [Trivia.joinTrailing])
    | some last =>
      refine .inr ⟨trivia.leading ++ existing.leading ++ inner.comments, last, text, ?_, rfl, rfl⟩
      simp only [Option.toList_some, append_assoc]
  | _ => exact absurd rfl hcommented

theorem trailed_attachLast (trailing : Option String) (hne : statements ≠ []) :
    Trailed (Target.comments statements) trailing
      (Target.comments (attachLast Statement.addTrivia trailing statements)) := by
  fun_induction attachLast Statement.addTrivia trailing statements with
  | case1 => exact absurd rfl hne
  | case2 last =>
    rw [Target.comments_singleton, Target.comments_singleton]
    exact trailed_addTrivia { trailing } last
  | case3 _ _ hrest ih =>
    rw [Target.comments_cons, Target.comments_cons]
    exact (ih hrest).append_left _

theorem trailed_attachStatements (trivia : Trivia) (hne : statements ≠ []) :
    Trailed (trivia.leading.map Comment.convert ++ Target.comments statements)
      (trivia.trailing.map Comment.convert)
        (Target.comments (attachStatements trivia statements)) := by
  unfold attachStatements
  split
  · next hempty => exact .inl (by simp [Trivia.comments_of_isEmpty hempty])
  unfold attachTrivia
  split
  · exact absurd rfl hne
  · rw [Target.comments_singleton, Target.comments_singleton]
    exact trailed_addTrivia trivia.convert _
  · next first _ hrest =>
    have hlast := (trailed_attachLast trivia.convert.trailing hrest).append_left
      (trivia.convert.leading ++ first.comments)
    rw [Target.comments_cons, Target.comments_cons, comments_addTrivia (.inl rfl), ← append_assoc]
    rw [Option.toList_none, append_nil]
    exact hlast

/-! ## Bodies of members -/

/-- Nothing of the body is written. -/
def Source.MemberBody.isBare (body : MemberBody) : Bool :=
  !body.namesValue && body.statements.all fun statement => statement.kind.isSilent

/-- A converted body has the comments of its source, all but those that have nothing to be on. -/
def KeepsComments (source : Source.MemberBody) (converted : List Statement) : Prop :=
  if source.isBare then converted = []
  else Trailed ((source.trivia.leading ++ Source.kept source.statements).map Comment.convert)
    (source.trivia.trailing.map Comment.convert) (Target.comments converted)

theorem Inner.gives_nil_iff {body : Body} {statement : Source.Statement}
    (h : ((Inner.at setting levels).statement body statement).Gives converted) :
    converted = [] ↔ statement.kind.isSilent := by
  cases levels with
  | zero => exact h.unsupported.elim
  | succ levels =>
    obtain ⟨_, hplain, rfl⟩ := h.map
    rw [attachStatements_eq_nil_iff]
    exact (Source.Statement.image_of_gives hplain.of_nested).eq_nil_iff

/-- Statements become nothing if and only if all of them are silent. -/
theorem Inner.Converts.eq_nil_iff {body : Body} {source : List Source.Statement}
    (h : (Inner.at setting levels).Converts body source converted) :
    converted = [] ↔ ∀ statement ∈ source, statement.kind.isSilent := by
  obtain ⟨_, hlists, rfl⟩ := h
  induction hlists with
  | nil => simp
  | cons hfirst _ ih =>
    rw [flatten_cons, append_eq_nil_iff, Inner.gives_nil_iff hfirst, ih, forall_mem_cons]

theorem OpeningImage.comments_eq_nil {namesValue : Bool} {opening : List Statement}
    (h : OpeningImage namesValue opening) : Target.comments opening = [] := by
  cases h with
  | none => exact Target.comments_nil
  | value => rfl

theorem OpeningImage.eq_nil_iff {namesValue : Bool} {opening : List Statement}
    (h : OpeningImage namesValue opening) : opening = [] ↔ namesValue = false := by
  cases h with
  | none => simp
  | value => simp

theorem BodyImage.keepsComments {source : Source.MemberBody}
    (h : BodyImage (Inner.at setting levels) source converted) :
    KeepsComments source converted := by
  obtain ⟨opening, _, statements, hopening, -, hconverts, rfl⟩ := h
  have hbare : opening ++ statements = [] ↔ source.isBare := by
    rw [append_eq_nil_iff, hopening.eq_nil_iff, hconverts.eq_nil_iff]
    simp [Source.MemberBody.isBare]
  unfold KeepsComments
  split
  · next h => exact attachStatements_eq_nil_iff.mpr (hbare.mpr h)
  · next h =>
    have htrailed := trailed_attachStatements source.trivia (mt hbare.mp h)
    rwa [Target.comments_append, hopening.comments_eq_nil, nil_append, hconverts.comments_kept,
      ← map_append] at htrailed

/-- The bodies of a declaration become the bodies of its members, one for one, and each keeps its
comments: those of all statements at any depth that write something, and those of its accessor
unless nothing is written. The call of another constructor is no part of a body. -/
theorem bodies_keep_comments {setting : Setting} {declaration : Declaration}
    {surroundings : Surroundings} {members : List Member}
    (h : (convertDeclaration setting declaration surroundings).1 = .ok members) :
    Forall₂ KeepsComments declaration.kind.bodies (members.flatMap Member.bodies) := by
  obtain ⟨levels, h⟩ := Inner.exists_at_of_current ⟨surroundings, h⟩
  cases levels with
  | zero => exact absurd h Convert.not_gives_unsupported
  | succ levels =>
    exact (h.of_nested.bodies (Inner.settles_attributes setting levels)).imp fun _ _ hbody =>
      hbody.keepsComments

/-- A comment behind an accessor and one behind its last statement become one. -/
theorem comments_of_an_accessor :
    let getter : Accessor := ⟨2, .get, [], [], [],
      [⟨3, .return (some (.me 4)), ⟨["' b"], some "' c"⟩⟩], ⟨["' a"], some "' d"⟩⟩
    let declaration : Declaration :=
      ⟨1, .property [] [.readOnly] "Kind" [] .absent none (some [getter]), {}⟩
    let joined := Comment.convert "' c" ++ " " ++ Comment.convert "' d"
    let body : List Statement :=
      [.commented ⟨[Comment.convert "' a", Comment.convert "' b"], some joined⟩
        (.return (some .this))]
    let member : Member := .property [] [.public] .object "Kind" [⟨.get, [], [], some body⟩] none
    (convertDeclaration {} declaration {}).1 = .ok [member] ∧
      Target.comments body = [Comment.convert "' a", Comment.convert "' b", joined] ∧
      Forall₂ KeepsComments [getter.body] [body] := by
  intro getter declaration joined body member
  have hrun : (convertDeclaration {} declaration {}).1 = .ok [member] := by rfl
  exact ⟨hrun, rfl, bodies_keep_comments hrun⟩

/-- Comments are lost with what they are on: the call of another constructor, and an empty accessor.
-/
theorem comments_lost_in_members :
    let call : Source.Expr := .invocation 4 (.memberAccess 5 (some (.myBase 6)) ⟨7, "New", []⟩) []
    let first : Source.Statement := ⟨3, .expression call, ⟨["' a"], some "' b"⟩⟩
    let getter : Accessor := ⟨9, .get, [], [], [], [], ⟨["' c"], none⟩⟩
    let declaration : Declaration := ⟨1, .type .class [] [] "Thing" [] [] []
      [⟨2, .constructor [] [] [] [first], {}⟩,
        ⟨8, .property [] [.readOnly] "Kind" [] .absent none (some [getter]), {}⟩], {}⟩
    let members : List Member := [.constructor [] [.public] "Thing" [] (some ⟨.base, []⟩) [],
      .property [] [.public] .object "Kind" [⟨.get, [], [], some []⟩] none]
    (convertDeclaration {} declaration {}).1 = .ok [.type .class [] [] "Thing" [] [] [] members] ∧
      Source.comments [first] = ["' a", "' b"] ∧ getter.trivia.comments = ["' c"] ∧
      members.flatMap Member.ownComments = [] ∧
      (members.flatMap Member.bodies).flatMap Target.comments = [] := by
  intro call first getter declaration members
  have hrun : (convertDeclaration {} declaration {}).1 =
    .ok [.type .class [] [] "Thing" [] [] [] members] := by rfl
  exact ⟨hrun, rfl, rfl, rfl, rfl⟩

end Sharpen

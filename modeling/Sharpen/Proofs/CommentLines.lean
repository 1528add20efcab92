import Sharpen.Batch
import Sharpen.Proofs.CommentText
import Sharpen.Proofs.Depth.Nesting
import Sharpen.Proofs.MemberComments
import Sharpen.Proofs.Placement.Declaration
import Sharpen.Proofs.Printing.Tree

/-!
# Comments of converted files

Every comment of a converted file is made of comments of the source: it is one of them, converted,
or the note on a field with events, or several of these with blanks between them (`Joined`). Bodies
keep the comments of their statements, so do the blocks of lambdas, which come from lambdas of the
source, and the comments around declarations are put around members.

With what is known of printed files, this says what stands behind a comment in the text of a
converted unit: `comments_end_their_lines`.
-/

namespace Sharpen

open List

variable {trivia : Trivia}

/-! ## The comments of a source tree -/

namespace Source

/-- The comments of the headers of the blocks directly inside a statement. -/
def StatementKind.headerComments (kind : StatementKind) : List String :=
  kind.commentsWith fun _ => []

section Blocks

variable {read : Statement → List String} {text : String}

/-- A comment of a block is one of its header or of its statements. -/
theorem mem_headers_or_statements {α : Type} {header : α → Trivia} {inside : α → List Statement}
    {blocks : List α}
    (h : text ∈ blocks.flatMap fun block => blockComments read (header block) (inside block)) :
    (text ∈ blocks.flatMap fun block => blockComments (fun _ => []) (header block) (inside block)) ∨
      text ∈ (blocks.flatMap inside).flatMap read := by
  obtain ⟨block, hblock, htext⟩ := mem_flatMap.mp h
  obtain hheader | hinside := mem_append.mp htext
  · exact .inl (mem_flatMap.mpr ⟨block, hblock, mem_append_left _ hheader⟩)
  · obtain ⟨part, hpart, htext⟩ := mem_flatMap.mp hinside
    exact .inr (mem_flatMap.mpr ⟨part, mem_flatMap.mpr ⟨block, hblock, hpart⟩, htext⟩)

/-- A comment inside a statement is one of a header or of a statement directly inside. -/
theorem StatementKind.mem_commentsWith {kind : StatementKind} (h : text ∈ kind.commentsWith read) :
    text ∈ kind.headerComments ∨ text ∈ kind.statements.flatMap read := by
  -- first and last stand for the statements around the blocks with headers
  have haround : ∀ {first last middle : List Statement} {headers blocks : List String},
      (text ∈ blocks → text ∈ headers ∨ text ∈ middle.flatMap read) →
      text ∈ first.flatMap read ++ blocks ++ last.flatMap read →
      text ∈ first.flatMap (fun _ => []) ++ headers ++ last.flatMap (fun _ => []) ∨
        text ∈ (first ++ middle ++ last).flatMap read := by
    intro first last middle headers blocks hblocks h
    simp only [flatMap_append, mem_append] at h ⊢
    tauto
  cases kind with
  | multiLineIf | «try» =>
    exact haround mem_headers_or_statements h
  | select => exact mem_headers_or_statements h
  | singleLineIf =>
    rw [commentsWith, ← flatMap_append] at h
    exact .inr h
  | «for» | forEach | «while» | doLoop | «with» | syncLock | usingValue | usingVariables =>
    exact .inr h
  | _ => cases h

end Blocks

/-- The comments of a construct itself, with those of the headers, accessors and values it is
written with. -/
def Construct.ownComments : Construct → List String
  | .expr _ => []
  | .statement node => node.trivia.comments ++ node.kind.headerComments
  | .declaration node =>
    node.trivia.comments ++ node.kind.bodies.flatMap (·.trivia.comments) ++ node.kind.valueComments

/-- A comment stands anywhere in a construct. -/
inductive Construct.HasComment (text : String) : Construct → Prop where
  | own {construct : Construct} (h : text ∈ construct.ownComments) : HasComment text construct
  | inside {construct part : Construct} (hpart : part ∈ construct.parts) (h : HasComment text part)
    :
      HasComment text construct

/-- A comment is one of the construct itself or of a part. -/
theorem Construct.HasComment.own_or_inside {text : String} {construct : Construct}
    (h : construct.HasComment text) :
    text ∈ construct.ownComments ∨ ∃ part ∈ construct.parts, part.HasComment text := by
  cases h with
  | own h => exact .inl h
  | inside hpart h => exact .inr ⟨_, hpart, h⟩

/-- A comment stands anywhere in a file. -/
def CompilationUnit.HasComment (unit : CompilationUnit) (text : String) : Prop :=
  ∃ part ∈ (Request.unit unit).parts, part.HasComment text

/-- What is kept of a statement are comments that it has. -/
theorem Statement.hasComment_of_kept (statement : Statement) {text : String}
    (h : text ∈ statement.kept) :
    (Construct.statement statement).HasComment text := by
  unfold Statement.kept Statement.commentsUnless at h
  split at h
  · cases h
  obtain h | htrailing := mem_append.mp h
  · obtain hleading | hinside := mem_append.mp h
    · exact .own (mem_append_left _ (mem_append_left _ hleading))
    · rw [StatementKind.commentsUnless_eq] at hinside
      obtain hheader | hstatement := StatementKind.mem_commentsWith hinside
      · exact .own (mem_append_right _ hheader)
      · obtain ⟨part, hpart, htext⟩ := mem_flatMap.mp hstatement
        have hsmaller : sizeOf part < sizeOf statement :=
          Nat.lt_trans (StatementKind.sizeOf_statement hpart) statement.sizeOf_kind_lt
        exact .inside (mem_append_right _ (mem_map_of_mem hpart)) (part.hasComment_of_kept htext)
  · exact .own (mem_append_left _ (mem_append_right _ htrailing))
termination_by sizeOf statement

/-- An expression or a statement, as a construct. -/
def Node.construct : Node → Construct
  | .expr node => .expr node
  | .statement node => .statement node

/-- The parts of a node are parts of the construct. -/
theorem Node.construct_mem_parts {node part : Node} (h : part ∈ node.parts) :
    part.construct ∈ node.construct.parts := by
  cases node <;> simp only [parts, construct, Construct.parts, mem_append, mem_map] at h ⊢
  all_goals
    obtain ⟨inner, hinner, rfl⟩ | ⟨inner, hinner, rfl⟩ := h
    · exact .inl ⟨inner, hinner, rfl⟩
    · exact .inr ⟨inner, hinner, rfl⟩

/-- The comments of the body of a lambda stand in the node around it. -/
theorem Node.HasBody.hasComment {node : Node} {statements : List Statement} {text : String}
    (h : node.HasBody statements) (htext : text ∈ kept statements) :
    node.construct.HasComment text := by
  induction h with
  | @here node hbody =>
    rw [kept, commentsUnless_eq_flatMap] at htext
    obtain ⟨part, hpart, htext⟩ := mem_flatMap.mp htext
    cases node with
    | expr =>
      refine .inside (mem_append_right _ (mem_map_of_mem ?_)) (part.hasComment_of_kept htext)
      exact Expr.mem_statements_of_body hbody hpart
    | statement => cases hbody
  | inside hpart _ ih => exact .inside (construct_mem_parts hpart) ih

/-- What is left behind the call of another constructor is in the body. -/
theorem behindChain_subset (body : List Statement) : behindChain body ⊆ body := by
  cases body with
  | nil => exact Subset.refl _
  | cons first rest =>
    rw [behindChain]
    split
    · exact subset_cons_self _ _
    · exact Subset.refl _

/-- The statements of a body are statements of the declaration. -/
theorem DeclarationKind.statements_subset {kind : DeclarationKind} {body : MemberBody}
    (h : body ∈ kind.bodies) : body.statements ⊆ kind.statements := by
  have haccessors {leavingOf : Accessor → Leaving} (accessors : Option (List Accessor))
      (h : body ∈ (accessors.getD []).map fun accessor =>
      { accessor.body with leaving := leavingOf accessor }) :
      body.statements ⊆ (accessors.getD []).flatMap (·.statements) := by
    obtain ⟨accessor, haccessor, rfl⟩ := mem_map.mp h
    exact fun statement hstatement => mem_flatMap.mpr ⟨accessor, haccessor, hstatement⟩
  cases kind with
  | property _ _ _ _ _ _ accessors =>
    exact haccessors accessors h
  | event _ _ _ _ _ accessors => exact haccessors accessors h
  | method =>
    rw [bodies] at h
    split at h
    · obtain rfl := mem_singleton.mp h
      exact Subset.refl _
    · obtain ⟨_, hstatements, rfl⟩ := mem_map.mp h
      obtain rfl := Option.mem_toList.mp hstatements
      exact Subset.refl _
  | «constructor» _ _ _ body =>
    obtain rfl := mem_singleton.mp h
    exact behindChain_subset body
  | operator =>
    obtain rfl := mem_singleton.mp h
    exact Subset.refl _
  | _ => cases h

end Source

open Source (Construct Declaration)
open Target (Statement Node Member EachLambdaOf)

variable {members : List Member} {statements : List Statement}

/-! ## The comments of a target tree -/

namespace Target

/-- A body has the comments of its statements. -/
theorem comments_subset_of_mem {part : Statement} (h : part ∈ statements) :
    part.comments ⊆ comments statements := by
  rw [comments_eq_flatMap]
  exact fun text htext => mem_flatMap.mpr ⟨part, h, htext⟩

theorem sectionComments_eq (sections : List SwitchSection) :
    sectionComments sections = comments (sections.flatMap (·.statements)) := by
  induction sections with
  | nil => rfl
  | cons first rest ih => simp [ih]

theorem catchComments_eq (catches : List CatchClause) :
    catchComments catches = comments (catches.flatMap (·.body)) := by
  induction catches with
  | nil => rfl
  | cons first rest ih => simp [ih]

/-- A statement has the comments of those directly inside. -/
theorem Statement.comments_subset {statement part : Statement} (h : part ∈ statement.statements) :
    part.comments ⊆ statement.comments := by
  cases statement with
  | commented =>
    obtain rfl := mem_singleton.mp h
    rw [comments_commented]
    exact subset_append_of_subset_left _ (subset_append_right _ _)
  | block => exact comments_subset_of_mem h
  | «if» =>
    rw [comments_if]
    obtain rfl | h := mem_cons.mp h
    · exact subset_append_left _ _
    · obtain rfl := Option.mem_toList.mp h
      exact subset_append_right _ _
  | switch =>
    rw [comments, sectionComments_eq]
    exact comments_subset_of_mem h
  | «try» body catches finallyBody =>
    have hall : (Statement.try body catches finallyBody).comments =
        Target.comments (body ++ catches.flatMap (·.body) ++ finallyBody.getD []) := by
      rw [comments_append, comments_append, ← catchComments_eq]
      cases finallyBody with
      | none => exact (append_nil _).symm
      | some statements => rfl
    rw [hall]
    exact comments_subset_of_mem h
  | «for» | forEach | «while» | «do» | lock | «using» =>
    obtain rfl := mem_singleton.mp h
    exact Subset.refl _
  | _ => cases h

/-- A tree carries the comments of its outermost statement and of the blocks of its lambdas. -/
theorem Node.EachLambda.carries {P : String → Prop} {node : Node}
    (h : node.EachLambda fun block => ∀ text ∈ comments block, P text)
    (hcomments : ∀ statement, node = .statement statement → ∀ text ∈ statement.comments, P text) :
    node.Carries P := by
  induction h with
  | @intro node hnode hparts ih =>
    refine .intro (fun text htext => ?_) fun part hpart => ih part hpart ?_
    · unfold Node.ownComments at htext
      split at htext
      · refine hcomments _ rfl text ?_
        rw [Statement.comments_commented]
        obtain hleading | htrailing := mem_append.mp htext
        · exact mem_append_left _ (mem_append_left _ hleading)
        · exact mem_append_right _ htrailing
      · cases htext
    · rintro _ rfl text htext
      obtain ⟨outer, rfl, hinside⟩ | ⟨block, hblock, hinside⟩ := mem_statements_or_body hpart
      · exact hcomments outer rfl text (Statement.comments_subset hinside htext)
      · exact hnode.2 block hblock text (comments_subset_of_mem hinside htext)

end Target

section Lambdas

variable {P : String → Prop}

/-- Statements carry their comments and those of the lambdas in them. -/
theorem EachLambdaIn.carries
    (h : EachLambdaIn (fun block => ∀ text ∈ Target.comments block, P text) statements)
    (hcomments : ∀ text ∈ Target.comments statements, P text) :
    ∀ statement ∈ statements, (Node.statement statement).Carries P := by
  intro statement hstatement
  refine (h statement hstatement).carries ?_
  rintro _ ⟨⟩ text htext
  exact hcomments text (Target.comments_subset_of_mem hstatement htext)

/-- Terms carry the comments of the lambdas in them. -/
theorem EachLambdaOf.carries {terms : List Node}
    (h : EachLambdaOf (fun block => ∀ text ∈ Target.comments block, P text) terms)
    (hterms : ∀ statement, .statement statement ∉ terms) : ∀ node ∈ terms, node.Carries P := by
  intro node hnode
  refine (h node hnode).carries ?_
  rintro statement rfl
  exact absurd hnode (hterms statement)

end Lambdas

/-! ## Joined comments -/

/-- One comment with a property, or several with blanks between them. -/
inductive Joined (S : String → Prop) : String → Prop where
  | one {text : String} (h : S text) : Joined S text
  | more {first text : String} (hfirst : Joined S first) (h : S text) :
    Joined S (first ++ " " ++ text)

/-- The conversions of all comments in a construct have a property. -/
def Source.Construct.CommentsGive (S : String → Prop) (construct : Construct) : Prop :=
  ∀ text, construct.HasComment text → S (Comment.convert text)

section Joined

variable {S : String → Prop}

/-- What holds of the comments of a construct holds of those of a part. -/
theorem Source.Construct.CommentsGive.part {construct part : Construct}
    (h : construct.CommentsGive S)
    (hpart : part ∈ construct.parts) : part.CommentsGive S :=
  fun text htext => h text (.inside hpart htext)

theorem Source.Construct.CommentsGive.own {construct : Construct} (h : construct.CommentsGive S) :
    ∀ text ∈ construct.ownComments, S (Comment.convert text) :=
  fun text htext => h text (.own htext)

/-- A comment that is put behind others may be joined to the last one. -/
theorem Trailed.joined {comments result : List String} {added : Option String}
    (h : Trailed comments added result) (hcomments : ∀ text ∈ comments, S text)
    (hadded : ∀ text ∈ added, S text) : ∀ text ∈ result, Joined S text := by
  obtain rfl | ⟨_, _, text, rfl, rfl, rfl⟩ := h
  · refine forall_mem_append.mpr ⟨fun text htext => .one (hcomments text htext), ?_⟩
    exact fun text htext => .one (hadded text (Option.mem_toList.mp htext))
  · obtain ⟨hbefore, hlast⟩ := forall_mem_append.mp hcomments
    refine forall_mem_append.mpr ⟨fun text htext => .one (hbefore text htext), ?_⟩
    exact forall_mem_singleton.mpr (.more (.one (forall_mem_singleton.mp hlast)) (hadded text rfl))

/-- Comments that are put around others may be joined to them. -/
theorem Trivia.joined_around {outer inner : Trivia} (houter : ∀ text ∈ outer.comments, S text)
    (hinner : ∀ text ∈ inner.comments, Joined S text) :
    ∀ text ∈ (outer.around inner).comments, Joined S text := by
  obtain ⟨_, trailing⟩ := outer
  obtain ⟨_, behind⟩ := inner
  obtain ⟨hleading, htrailing⟩ := forall_mem_append.mp houter
  obtain ⟨hbefore, hbehind⟩ := forall_mem_append.mp hinner
  refine forall_mem_append.mpr ⟨forall_mem_append.mpr ⟨?_, hbefore⟩, ?_⟩
  · exact fun text htext => .one (hleading text htext)
  · cases behind with
    | none => exact fun text htext => .one (htrailing text htext)
    | some existing =>
      have hexisting := forall_mem_singleton.mp hbehind
      cases trailing with
      | none => exact forall_mem_singleton.mpr hexisting
      | some added =>
        exact forall_mem_singleton.mpr (.more hexisting (forall_mem_singleton.mp htrailing))

variable {member : Member}

/-- A member with comments around it. -/
theorem Target.Member.Carries.commented (htrivia : ∀ text ∈ trivia.comments, Joined S text)
    (h : member.Carries (Joined S)) : (Member.commented trivia member).Carries (Joined S) :=
  .intro htrivia (forall_mem_nil _) (forall_mem_nil _) (forall_mem_singleton.mpr h)

/-- Comments around a member, if there are any. -/
theorem Target.Member.Carries.withTrivia (htrivia : ∀ text ∈ trivia.comments, S text)
    (h : member.Carries (Joined S)) : (member.withTrivia trivia).Carries (Joined S) := by
  unfold Member.withTrivia
  split
  · exact h
  · exact .commented (fun text htext => .one (htrivia text htext)) h

/-- Comments around a member that may have some already. -/
theorem Target.Member.Carries.addTrivia (htrivia : ∀ text ∈ trivia.comments, S text)
    (h : member.Carries (Joined S)) : (member.addTrivia trivia).Carries (Joined S) := by
  unfold Member.addTrivia
  split
  · exact .commented (Trivia.joined_around htrivia h.own) (forall_mem_singleton.mp h.members)
  · exact h.withTrivia htrivia

/-- The comments of a declaration are put around its members. -/
theorem carries_attachMembers (htrivia : ∀ text ∈ trivia.comments, S (Comment.convert text))
    (h : ∀ member ∈ members, member.Carries (Joined S)) :
    ∀ member ∈ attachMembers trivia members, member.Carries (Joined S) := by
  have hconverted : ∀ text ∈ trivia.convert.comments, S text := by
    rw [Trivia.comments_convert]
    exact forall_mem_map.mpr htrivia
  unfold attachMembers
  split
  · exact h
  · exact forall_mem_attachTrivia (fun added _ hadded h => h.addTrivia fun text htext =>
      hconverted text (hadded htext)) h

end Joined

/-! ## One level -/

variable {declaration : Declaration}

section Level

variable {setting : Setting} {levels : Nat} {S : String → Prop}

/-- The block of a lambda has the comments of a lambda of the source. -/
theorem BodyFrom.comments_joined {node : Source.Node} {block : List Statement}
    (h : BodyFrom setting node block) (hnode : node.construct.CommentsGive S) :
    ∀ text ∈ Target.comments block, Joined S text := by
  obtain ⟨_, hbody, _, _, -, hconverts⟩ := h
  rw [hconverts.comments_kept]
  exact forall_mem_map.mpr fun text htext => .one (hnode text (hbody.hasComment htext))

/-- So have the blocks in a converted expression. -/
theorem bodies_joined {expr : Source.Expr} (h : (Construct.expr expr).CommentsGive S) :
    (Inner.at setting levels).Bodies (fun block => ∀ text ∈ Target.comments block, Joined S text)
    expr :=
  fun allowed converted hgives =>
  ((bodies_from setting levels).1 expr allowed converted hgives).mono
    fun _ hblock => hblock.comments_joined h

/-- The body of a member. -/
theorem BodyImage.carries {source : Source.MemberBody} {converted : List Statement}
    (h : BodyImage (Inner.at setting levels) source converted)
    (htrivia : ∀ text ∈ source.trivia.comments, S (Comment.convert text))
    (hstatements : ∀ statement ∈ source.statements, (Construct.statement statement).CommentsGive S) :
    ∀ statement ∈ converted, (Node.statement statement).Carries (Joined S) := by
  have hkept : ∀ text ∈ Source.kept source.statements, S (Comment.convert text) := by
    rw [Source.kept, Source.commentsUnless_eq_flatMap]
    intro text htext
    obtain ⟨statement, hstatement, htext⟩ := mem_flatMap.mp htext
    exact hstatements statement hstatement text (statement.hasComment_of_kept htext)
  refine EachLambdaIn.carries ?_ ?_
  · obtain ⟨_, _, _, hopening, -, hconverts, rfl⟩ := h
    refine EachLambdaIn.attachStatements (forall_mem_append.mpr ⟨hopening.eachLambda, ?_⟩)
    intro statement hstatement
    refine (hconverts.lambdas_from statement hstatement).mono fun block hblock => ?_
    obtain ⟨part, hpart, hbody⟩ := hblock
    exact hbody.comments_joined (hstatements part hpart)
  · have hkeeps := h.keepsComments
    unfold KeepsComments at hkeeps
    obtain ⟨hleading, htrailing⟩ := forall_mem_append.mp htrivia
    split at hkeeps
    · rw [hkeeps]
      exact forall_mem_nil _
    · refine hkeeps.joined ?_ ?_
      · exact forall_mem_map.mpr (forall_mem_append.mpr ⟨hleading, hkept⟩)
      · intro text htext
        obtain ⟨original, horiginal, rfl⟩ := Option.map_eq_some_iff.mp htext
        exact htrailing original (Option.mem_toList.mpr horiginal)

/-- The members that declarations become. -/
theorem members_carry {inner : Inner} {declarations : List Declaration} {converted : List Member}
    (h : (inner.members declarations).Gives converted)
    (hsource : ∀ declaration ∈ declarations, (Construct.declaration declaration).CommentsGive S)
    (hinner : ∀ declaration ∈ declarations, ∀ members,
      (inner.declaration declaration).Gives members → ∀ member ∈ members, member.Carries (Joined S)) :
    ∀ member ∈ converted,
      member.Carries (Joined S) := by
  obtain ⟨_, hlists, rfl⟩ := h.map
  intro member hmember
  obtain ⟨_, hlist, hmember⟩ := mem_flatten.mp hmember
  obtain ⟨declaration, hdeclaration, hgiven⟩ := hlists.mapM.exists_left hlist
  obtain ⟨plain, hplain, rfl⟩ := hgiven.map
  have hown := (hsource declaration hdeclaration).own
  refine carries_attachMembers (fun text htext => hown text ?_)
    (hinner declaration hdeclaration plain hplain)
    member hmember
  exact mem_append_left _ (mem_append_left _ htext)

/-- **One level**: the members that a declaration becomes. -/
theorem MemberImage.carries (h : MemberImage (Inner.at setting levels) declaration.kind members)
    (hsource : (Construct.declaration declaration).CommentsGive S)
    (hinside : ∀ part ∈ declaration.kind.declarations, ∀ members,
      ((Inner.at setting levels).declaration part).Gives members → ∀ member ∈ members,
      member.Carries (Joined S)) : ∀ member ∈ members,
      member.Carries (Joined S) := by
  obtain ⟨hown, hvalues⟩ := forall_mem_append.mp hsource.own
  have hexprs : ∀ expr ∈ declaration.kind.exprs, (Construct.expr expr).CommentsGive S := by
    refine fun expr hexpr => hsource.part (mem_append_left _ (mem_append_left _ ?_))
    exact mem_map_of_mem (mem_append_left _ hexpr)
  have hstatements : ∀ statement ∈ declaration.kind.statements,
    (Construct.statement statement).CommentsGive S := by
    refine fun statement hstatement => hsource.part (mem_append_left _ (mem_append_right _ ?_))
    exact mem_map_of_mem hstatement
  have hdeclarations : ∀ part ∈ declaration.kind.declarations,
    (Construct.declaration part).CommentsGive S :=
    fun part hpart => hsource.part (mem_append_right _ (mem_map_of_mem hpart))
  intro member hmember
  refine .intro (fun text htext => ?_) ?_ (fun body hbody => ?_) fun part hpart => ?_
  · have hvalue : text ∈ declaration.kind.valueComments.map Comment.convert :=
      h.comments ▸ mem_flatMap.mpr ⟨member, hmember, htext⟩
    obtain ⟨original, horiginal, rfl⟩ := mem_map.mp hvalue
    exact .one (hvalues original horiginal)
  · refine EachLambdaOf.carries ?_ fun statement => member.statement_notMem_terms
    exact h.terms _ (fun expr hexpr => bodies_joined (hexprs expr hexpr)) member hmember
  · obtain ⟨source, hbodies, himage⟩ :=
      h.bodies.exists_left (mem_flatMap.mpr ⟨member, hmember, hbody⟩)
    refine himage.carries (fun text htext => ?_) fun statement hstatement => ?_
    · exact hown text (mem_append_right _ (mem_flatMap.mpr ⟨source, hbodies, htext⟩))
    · exact hstatements statement (Source.DeclarationKind.statements_subset hbodies hstatement)
  · exact members_carry h.inside hdeclarations hinside part
      (mem_flatMap.mpr ⟨member, hmember, hpart⟩)

end Level

/-! ## Whole trees -/

section Trees

variable {S : String → Prop} (hnote : S withEventsComment)
include hnote

/-- The members that a declaration becomes at any level. -/
theorem declarations_carry (setting : Setting) (levels : Nat)
    (h : ((Inner.at setting levels).declaration declaration).Gives members)
    (hsource : (Construct.declaration declaration).CommentsGive S) :
    ∀ member ∈ members, member.Carries (Joined S) := by
  induction levels generalizing declaration members with
  | zero => exact h.unsupported.elim
  | succ levels ih =>
    have hinside : ∀ part ∈ declaration.kind.declarations, ∀ members,
        ((Inner.at setting levels).declaration part).Gives members →
        ∀ member ∈ members, member.Carries (Joined S) := by
      refine fun part hpart members hgives => ih hgives (hsource.part ?_)
      exact mem_append_right _ (mem_map_of_mem hpart)
    obtain himage | ⟨_, _, _, _, -, himage, rfl⟩ :=
      Declaration.image_of_gives (Inner.settles_attributes setting levels) h.of_nested
    · exact himage.carries hsource hinside
    · refine forall_mem_markLast (fun member h => h.withTrivia ?_) (himage.carries hsource hinside)
      exact forall_mem_singleton.mpr hnote

/-- The file that a unit becomes. -/
theorem convertUnit_carries {setting : Setting} {unit : Source.CompilationUnit}
    {output : Target.CompilationUnit} (h : (convertUnit setting unit).Gives output)
    (hsource : ∀ text, unit.HasComment text → S (Comment.convert text)) :
    output.Carries (Joined S) := by
  have hparts : ∀ part ∈ (Request.unit unit).parts, part.CommentsGive S :=
    fun part hpart text htext => hsource text ⟨part, hpart, htext⟩
  obtain ⟨hattributes, hdeclarations⟩ := forall_mem_append.mp hparts
  rw [forall_mem_map] at hattributes hdeclarations
  obtain ⟨levels, h⟩ := Inner.exists_at_of_current h
  obtain ⟨_, husings, h⟩ := h.bind
  obtain ⟨marks, hmarks, h⟩ := h.bind
  obtain ⟨members, hmembers, rfl⟩ := h.map
  refine ⟨fun directive hdirective => ?_, ?_, ?_⟩
  · obtain ⟨_, -, hclause⟩ := husings.mapM.exists_left hdirective
    refine (Source.ImportsClause.eachLambda hclause.ofExcept).carries ?_
    exact fun statement heq => Node.noConfusion heq
  · refine EachLambdaOf.carries ?_ fun statement => Target.statement_notMem_attributeParts marks
    exact Inner.Bodies.attributes (fun expr hexpr => bodies_joined (hattributes expr hexpr)) _
      hmarks
  · refine members_carry hmembers hdeclarations fun declaration hdeclaration members hgives => ?_
    exact declarations_carry hnote setting levels hgives (hdeclarations declaration hdeclaration)

end Trees

/-! ## Converted units -/

/-- A comment that may stand in a converted file: the note on a field with events, or a comment of
the source as a comment to the end of the line. -/
def Emitted (tree : Source.CompilationUnit) (text : String) : Prop :=
  text = withEventsComment ∨
    Comment.IsLineComment text ∧ ∃ original, tree.HasComment original ∧ text =
    Comment.convert original

/-- A comment never swallows code. In the text of a converted unit, a comment is made of comments of
the source, converted and with blanks between them, and of notes. Behind it on its line there are
only comments of the same kind, each behind one blank. -/
theorem comments_end_their_lines {options : Options} {unit : SourceUnit}
    {output : Target.CompilationUnit}
    (h : unit.convert options = .ok output)
    (hbasic : ∀ text, unit.tree.HasComment text → Comment.IsBasic text) {before after : Layout}
    {text : String} (hsplit : output.layout = before ++ .comment text :: after) (width : Nat) :
    Joined (Emitted unit.tree) text ∧
      ∃ others : List String, ∃ rest, (∀ other ∈ others, Joined (Emitted unit.tree) other) ∧
      output.text width =
          before.render width ++ text ++ (String.join (others.map (" " ++ ·)) ++ "\n" ++ rest) := by
  have hcarries : output.Carries (Joined (Emitted unit.tree)) := by
    refine convertUnit_carries (.inl rfl) ⟨{}, h⟩ fun original horiginal => ?_
    exact .inr ⟨(hbasic original horiginal).convert, original, horiginal, rfl⟩
  have hfits := hcarries.fits
  rw [hsplit] at hfits
  obtain ⟨htext, hafter⟩ := hfits.at_comment
  obtain ⟨others, rest, hothers, heq⟩ := Layout.Fits.exists_text width after hafter
  refine ⟨htext, others, rest, hothers, ?_⟩
  rw [← heq, Target.CompilationUnit.text, hsplit, Layout.render_append, Layout.render_cons]
  exact (String.append_assoc ..).symm

/-- A field with a note and a comment behind it, and a lambda in it with a comment in its block. -/
theorem comments_in_and_behind_a_lambda :
    let jump : Source.Statement := ⟨5, .return none, ⟨[], some "' c"⟩⟩
    let field : Declaration := ⟨2, .field [] [.withEvents]
      [⟨[⟨3, "source", false, none, []⟩], .absent,
      some (.lambda 4 .sub [] [] none (.block [jump]))⟩],
      ⟨[], some "REM b"⟩⟩
    let unit : SourceUnit :=
      ⟨"a", ⟨0, [], [], [⟨1, .type .class [] [] "Thing" [] [] [] [field], ⟨["' a"], none⟩⟩]⟩, {}⟩
    let block : List Statement := [.commented ⟨[], some (Comment.convert "' c")⟩ (.return none)]
    let text := withEventsComment ++ " " ++ Comment.convert "REM b"
    let member : Member := .commented ⟨[], some text⟩
      (.field [] [] (.single .object "source" (some (.lambda false (.list []) (.block block)))))
    let output : Target.CompilationUnit := ⟨[], [],
      [.commented ⟨[Comment.convert "' a"], none⟩ (.type .class [] [] "Thing" [] [] [] [member])]⟩
    let before : Layout := output.layout.take 33
    let after : Layout := output.layout.drop 34
    unit.convert {} = .ok output ∧ (∀ text, unit.tree.HasComment text → Comment.IsBasic text) ∧
      output.layout = before ++ .comment text :: after ∧
      Joined (Emitted unit.tree) text ∧
        ∃ others : List String, ∃ rest, (∀ other ∈ others, Joined (Emitted unit.tree) other) ∧
        output.text 4 =
            before.render 4 ++ text ++ (String.join (others.map (" " ++ ·)) ++ "\n" ++ rest) := by
  intro jump field unit block text member output before after
  have hrun : unit.convert {} = .ok output := by rfl
  have hsplit : output.layout = before ++ .comment text :: after := by rfl
  have hbasic : ∀ text, unit.tree.HasComment text → Comment.IsBasic text := by
    have ha : Comment.IsBasic "' a" :=
      ⟨⟨[], _, rfl, forall_mem_nil _, .apostrophe _⟩, Comment.not_breaksLine_of_all rfl⟩
    have hc : Comment.IsBasic "' c" :=
      ⟨⟨[], _, rfl, forall_mem_nil _, .apostrophe _⟩, Comment.not_breaksLine_of_all rfl⟩
    have hblank : ∀ c ∈ [' ', 'b'].head?, Text.isBlank c := by
      rintro _ ⟨⟩
      rfl
    have hb : Comment.IsBasic "REM b" :=
      ⟨⟨[], _, rfl, forall_mem_nil _, .remark (.inl rfl) (.inl rfl) (.inl rfl) hblank⟩,
        Comment.not_breaksLine_of_all rfl⟩
    rintro _ ⟨part, hpart, htext⟩
    obtain rfl := mem_singleton.mp hpart
    obtain htext | ⟨part, hpart, htext⟩ := htext.own_or_inside
    · obtain rfl := mem_singleton.mp htext
      exact ha
    obtain rfl := mem_singleton.mp hpart
    obtain htext | ⟨part, hpart, htext⟩ := htext.own_or_inside
    · obtain rfl := mem_singleton.mp htext
      exact hb
    obtain rfl := mem_singleton.mp hpart
    obtain htext | ⟨part, hpart, htext⟩ := htext.own_or_inside
    · cases htext
    obtain rfl := mem_singleton.mp hpart
    obtain htext | ⟨_, hpart, htext⟩ := htext.own_or_inside
    · obtain rfl := mem_singleton.mp htext
      exact hc
    cases hpart
  exact ⟨hrun, hbasic, hsplit, comments_end_their_lines hrun hbasic hsplit 4⟩

end Sharpen

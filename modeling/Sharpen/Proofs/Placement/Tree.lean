import Sharpen.Proofs.Jumps.Reach
import Sharpen.Proofs.Placement.Statement

/-!
# Valid trees

A tree is valid if every node of it is, at any depth: `Node.Valid` asks of a statement that it is
`Placed`, and of a lambda that its parameters agree in having types and that the jumps in its block
stay inside.

Statements inside statements are dealt with by `SoundIn`, and lambdas by `Node.EachLambda`; together
they reach every node (`Node.EachLambda.valid`), since a statement can only stand inside another
statement or in the block of a lambda.
-/

namespace Sharpen

open Target (Statement Node)

namespace Target

/-- Each jump in a body has a block of the body to go to: `break` a loop or a `switch`, `continue` a
loop. -/
def JumpsLand (statements : List Statement) : Prop :=
  ∀ mark ∈ flowIn [] statements, mark.hasTarget

/-- A node is valid where it stands, as far as itself and its direct parts are concerned. -/
structure Node.Valid (node : Node) : Prop where
  placed : ∀ statement, node = .statement statement → statement.Placed
  lambda : node.LambdaWith JumpsLand

/-- The body of a method or accessor: its statements are valid at any depth, and its jumps stay
inside. -/
structure ValidBody (statements : List Statement) : Prop where
  everywhere : ∀ statement ∈ statements, (Node.statement statement).Everywhere Node.Valid
  jumps : JumpsLand statements

/-! ## Where statements can stand -/

section Terms

variable {statement : Statement}

@[simp] theorem Content.statement_notMem_parts (content : Content) :
    .statement statement ∉ content.parts := by
  cases content <;> simp [Content.parts]

@[simp] theorem Braces.statement_notMem_parts (braces : Braces) :
    .statement statement ∉ braces.parts := by
  cases braces <;> simp [Braces.parts]

@[simp] theorem Parameter.statement_notMem_parts (parameter : Parameter) :
    .statement statement ∉ parameter.parts := by
  simp [Parameter.parts, attributeParts]

@[simp] theorem LambdaParameters.statement_notMem_parts (parameters : LambdaParameters) :
    .statement statement ∉ parameters.parts := by
  cases parameters <;> simp [LambdaParameters.parts]

@[simp] theorem Variables.statement_notMem_parts (group : Variables) :
    .statement statement ∉ group.parts := by
  simp [Variables.parts]

@[simp] theorem Opening.statement_notMem_parts (opening : Opening) :
    .statement statement ∉ opening.parts := by
  cases opening <;> simp [Opening.parts]

@[simp] theorem CatchHeader.statement_notMem_parts (header : CatchHeader) :
    .statement statement ∉ header.parts := by
  cases header <;> simp [CatchHeader.parts]

theorem Statement.statement_notMem_terms (outer : Statement) :
    .statement statement ∉ outer.terms := by
  cases outer <;> simp [Statement.terms]

end Terms

/-- A statement stands directly inside another one or is one of the block of a lambda. -/
theorem Node.mem_statements_or_body {node : Node} {statement : Statement}
    (h : Node.statement statement ∈ node.parts) :
    (∃ outer, node = .statement outer ∧ statement ∈ outer.statements) ∨
      ∃ block, node.body? = some block ∧ statement ∈ block := by
  cases node with
  | name name => cases name <;> simp [Node.parts, Name.parts] at h
  | type type => cases type <;> simp [Node.parts, TypeSyntax.parts] at h
  | expr expr =>
    cases expr with
    | lambda _ _ body =>
      cases body with
      | expression => simp [Node.parts, Expr.parts, LambdaBody.parts] at h
      | block statements =>
        refine .inr ⟨statements, rfl, ?_⟩
        simpa [Node.parts, Expr.parts, LambdaBody.parts] using h
    | _ => simp [Node.parts, Expr.parts] at h
  | statement outer =>
    obtain h | h := List.mem_append.mp h
    · exact absurd h (Statement.statement_notMem_terms outer)
    · obtain ⟨_, hpart, heq⟩ := List.mem_map.mp h
      cases heq
      exact .inl ⟨outer, rfl, hpart⟩

end Target

/-! ## Whole trees -/

/-- Statements that can stand together as the block of a lambda. -/
def SoundBlock (statements : List Statement) : Prop :=
  SoundIn statements ∧ Target.JumpsLand statements

/-- **Every node**: lambdas with sound blocks, and sound statements around them, make a valid tree.
-/
theorem Target.Node.EachLambda.valid {node : Node} (h : node.EachLambda SoundBlock)
    (hplaced : ∀ statement, node = .statement statement → statement.Everywhere Statement.Placed) :
    node.Everywhere Node.Valid := by
  induction h with
  | @intro node hnode hparts ih =>
    refine .intro ⟨fun statement heq => ?_, hnode.1, fun block hblock =>
      (hnode.2 block hblock).2⟩ ?_
    · cases hplaced statement heq with
      | intro h _ => exact h
    · intro part hpart
      refine ih part hpart ?_
      rintro statement rfl
      -- inside a statement the outer one vouches for it, in a lambda the block does
      obtain ⟨outer, rfl, hinside⟩ | ⟨block, hblock, hinside⟩ := mem_statements_or_body hpart
      · cases hplaced outer rfl with
        | intro _ hinner => exact hinner statement hinside
      · exact ((hnode.2 block hblock).1 statement hinside).everywhere

theorem EachLambdaIn.valid {statements : List Statement} (h : EachLambdaIn SoundBlock statements)
    (hsound : SoundIn statements) :
    ∀ statement ∈ statements, (Node.statement statement).Everywhere Node.Valid := by
  intro statement hstatement
  refine (h statement hstatement).valid ?_
  rintro _ ⟨⟩
  exact (hsound statement hstatement).everywhere

section Conversion

variable {setting : Setting} {levels : Nat} {body : Body} {source : List Source.Statement}
  {output : List Statement}

theorem Inner.Converts.soundBlock (h : (Inner.at setting levels).Converts body source output)
    (hfresh : body.breakables = []) : SoundBlock output := by
  refine ⟨h.sound, ?_⟩
  obtain ⟨hflow, htarget⟩ := h.sameJumps
  rw [hfresh] at hflow htarget
  unfold Target.JumpsLand
  rw [show Target.flowIn [] output = _ from hflow]
  exact htarget

theorem BodyFrom.soundBlock {node : Source.Node} (h : BodyFrom setting node output) :
    SoundBlock output := by
  obtain ⟨_, -, _, _, hfresh, hconverts⟩ := h
  exact hconverts.soundBlock hfresh

theorem Inner.Converts.soundLambdas (h : (Inner.at setting levels).Converts body source output) :
    EachLambdaIn SoundBlock output := by
  intro statement hstatement
  refine (h.lambdas_from statement hstatement).mono fun block hblock => ?_
  obtain ⟨_, -, hbody⟩ := hblock
  exact hbody.soundBlock

theorem bodies_soundBlock (setting : Setting) (levels : Nat) (expr : Source.Expr) :
    (Inner.at setting levels).Bodies SoundBlock expr :=
  fun allowed converted h =>
    ((bodies_from setting levels).1 expr allowed converted h).mono fun _ hbody => hbody.soundBlock

end Conversion

end Sharpen

import Sharpen.Convert.Literal

/-!
# Jumps

`break` leaves the innermost loop or `switch`, and `continue` resumes the innermost loop. A jump of
the source names the kind of block it leaves or resumes and is converted only when that is the block
that the target reaches. A jump out of a whole body becomes a `return`.
-/

namespace Sharpen

namespace Body

/-- `Return`. -/
def leaveWith (body : Body) : Option Target.Expr → Target.Statement
  | some value => .return (some value)
  | none => if body.isIterator then .yieldBreak else .return none

/-- `Exit` from a whole body. A body that has to give a value gives the default one. -/
def leave (body : Body) : Except ConversionError Target.Statement :=
  if body.isIterator then .ok .yieldBreak
  else if !body.kind.returnsValue then .ok (.return none)
  else
    match body.kind.returnType? with
    | none => .ok (.return (some unknownDefault))
    | some type =>
      match type.defaultValue? with
      | some value => .ok (.return (some value))
      | none =>
        .error (.unsupported "ExitStatement"
          ("the default value of " ++ type.displayName ++ " cannot be written"))

/-- `Exit` from a loop or `Select` block, which has to be the innermost one. -/
def leaveBlock (body : Body) (block : Source.BlockKind) : Except ConversionError Target.Statement :=
  let name := Vocabulary.spelling block
  match body.breakables with
  | innermost :: _ =>
    if innermost = block then .ok .break
    else
      .error (.unsupported "ExitStatement"
        ("Exit " ++ name ++ " would only leave the enclosing " ++ Vocabulary.spelling innermost))
  | [] =>
    .error (.unsupported "ExitStatement"
      ("Exit " ++ name ++ " is not inside a " ++ name ++ " block"))

/-- `Exit`. -/
def exit (body : Body) (block : Source.BlockKind) : Except ConversionError Target.Statement :=
  match block with
  | .do | .for | .while | .select => body.leaveBlock block
  | .try =>
    .error (.unsupported "ExitTryStatement" "C# has no statement that leaves only a try block")
  | .sub | .function | .property | .operator => body.leave

/-- `Continue`, which has to name the innermost loop. -/
def resume (body : Body) (block : Source.BlockKind) : Except ConversionError Target.Statement :=
  let name := Vocabulary.spelling block
  match body.breakables.find? (· != .select) with
  | some innermost =>
    if innermost = block then .ok .continue
    else
      .error (.unsupported "ContinueStatement"
        ("Continue " ++ name ++ " would resume the enclosing " ++ Vocabulary.spelling innermost ++
          " loop"))
  | none =>
    .error (.unsupported "ContinueStatement" ("Continue " ++ name ++ " is not inside a loop"))

end Body

end Sharpen

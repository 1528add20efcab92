import Sharpen.Diagnostic
import Sharpen.Layout
import Sharpen.Model.Table

/-!
# Conversions

A conversion either gives a result or stops at the first construct that has no counterpart in the
target language. On the way it keeps track of its `Surroundings`: the type blocks it is in, the
names that stand for the targets of the `With` blocks it is in, whether it is at the head of a
conditional access, and how deep it is nested. The surroundings survive an error, so that what
follows a failed conversion is seen to start from where it started.

Each of them is changed for the length of an inner conversion only: `nested`, `inContainer`,
`withReceiver` and `bindingHead` put it back whether the inner conversion succeeds or fails.
-/

namespace Sharpen

open Model (SemanticTable)

/-- Why a conversion stops: there is no rule for a kind of node, or the rule declines a node. -/
inductive ConversionError where
  | unimplemented (kind : String)
  | unsupported (kind reason : String)
  deriving DecidableEq, Inhabited

namespace ConversionError

/-- The kind of node at which the conversion stopped. -/
def kind : ConversionError → String
  | .unimplemented node => node
  | .unsupported node _ => node

/-- The number under which the error is reported. -/
def code : ConversionError → Nat
  | .unimplemented _ => Diagnostic.unimplementedCode
  | .unsupported _ _ => Diagnostic.unsupportedCode

/-- The text of the error. -/
def message : ConversionError → String
  | .unimplemented node => node ++ " not implemented!"
  | .unsupported node reason => node ++ " not supported: " ++ reason

end ConversionError

/-- How the target is written. -/
structure Options where
  /-- blanks for each level of indentation -/
  indentWidth : Nat := defaultIndentWidth
  /-- leave a comment where a modifier had to be dropped -/
  emitTodoComments : Bool := true
  deriving DecidableEq, Inhabited

/-- What stays the same throughout the conversion of a unit. -/
structure Setting where
  table : SemanticTable := {}
  options : Options := {}
  deriving Inhabited

/-- A type block around the node being converted. -/
structure Container where
  identifier : String
  kind : Source.TypeBlockKind
  deriving DecidableEq, Inhabited

/-- Where a conversion stands. The lists have the innermost block first. -/
structure Surroundings where
  /-- how many nodes are being converted, one inside the other -/
  depth : Nat := 0
  /-- the type blocks around the node -/
  containers : List Container := []
  /-- the variables that hold the targets of the `With` blocks around the node -/
  receivers : List String := []
  /-- the next access without a receiver is the head of a conditional access -/
  atBindingHead : Bool := false
  deriving DecidableEq, Inhabited

/-- A conversion with a result of type `α`. -/
abbrev Convert := ExceptT ConversionError (StateM Surroundings)

namespace Convert

/-- A result that needs no surroundings. -/
def ofExcept {α : Type} (result : Except ConversionError α) : Convert α :=
  fun surroundings => (result, surroundings)

instance : MonadLift (Except ConversionError) Convert := ⟨ofExcept⟩

/-- Stops because the rule for `kind` declines the node. -/
def unsupported {α : Type} (kind reason : String) : Convert α :=
  throw (.unsupported kind reason)

/-- Stops because there is no rule for `kind`. -/
def unimplemented {α : Type} (kind : String) : Convert α :=
  throw (.unimplemented kind)

/-- Runs a conversion in changed surroundings and restores them afterwards, come what may. -/
def within {α : Type} (change restore : Surroundings → Surroundings) (inner : Convert α) :
    Convert α :=
  fun surroundings =>
    let (result, after) := inner (change surroundings)
    (result, restore after)

/-- A conversion one level deeper. -/
def nested {α : Type} (inner : Convert α) : Convert α :=
  within (fun s => { s with depth := s.depth + 1 }) (fun s => { s with depth := s.depth - 1 }) inner

/-- A conversion inside a type block. -/
def inContainer {α : Type} (container : Container) (inner : Convert α) : Convert α :=
  within (fun s => { s with containers := container :: s.containers })
    (fun s => { s with containers := s.containers.tail }) inner

/-- A conversion inside a `With` block whose target is in the variable `name`. -/
def withReceiver {α : Type} (name : String) (inner : Convert α) : Convert α :=
  within (fun s => { s with receivers := name :: s.receivers })
    (fun s => { s with receivers := s.receivers.tail }) inner

/-- The conversion of the right side of a conditional access. -/
def bindingHead {α : Type} (inner : Convert α) : Convert α :=
  fun surroundings =>
    let (result, after) := inner { surroundings with atBindingHead := true }
    (result, { after with atBindingHead := surroundings.atBindingHead })

/-- Whether this is the head of a conditional access; there is only one head. -/
def takeBindingHead : Convert Bool :=
  fun surroundings =>
    (.ok surroundings.atBindingHead, { surroundings with atBindingHead := false })

/-- The innermost type block. -/
def container? : Convert (Option Container) := do
  return (← get).containers.head?

/-- Whether the innermost type block is a module. -/
def inModule : Convert Bool := do
  return (← container?).any fun container => container.kind == .module

/-- The variable of the innermost `With` block. -/
def receiver? : Convert (Option String) := do
  return (← get).receivers.head?

end Convert

end Sharpen

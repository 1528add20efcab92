import Sharpen.Convert.Inner
import Sharpen.Convert.Numeral

/-!
# Literals

`Nothing` stands for the default value of the type that its place demands: `null` for references,
`default(T)` for other types. Where the type is not known, `null` is written with a comment.
-/

namespace Sharpen

open Model (TypeSymbol)

/-- `null` where the type is not known. -/
def unknownDefault : Target.Expr :=
  .commented .null "TODO Change to default(_) if this is not a reference type"

/-- The default value of a type, `none` if the type cannot be written. -/
def Model.TypeSymbol.defaultValue? (type : TypeSymbol) : Option Target.Expr :=
  if type.isReferenceType then some .null
  else if type.isError || !type.canBeNamed then none
  else some (.defaultOf type.written)

/-- Each pair of double quotes becomes one. -/
def undoubleQuotes : List Char → List Char
  | '"' :: '"' :: rest => '"' :: undoubleQuotes rest
  | c :: rest => c :: undoubleQuotes rest
  | [] => []

namespace Inner

/-- `Nothing` at a node. -/
def nothing (inner : Inner) (id : Source.NodeId) : Target.Expr :=
  match inner.table.convertedType? id with
  | none => unknownDefault
  | some type => type.defaultValue?.getD unknownDefault

/-- A literal. A date is read from its text when the program runs. -/
def literal (inner : Inner) (id : Source.NodeId) : Source.Literal → Convert Target.Expr
  | .nothing => return inner.nothing id
  | .boolean value => return .literal (.bool value)
  | .numeric text => return .number (← Numeral.convert text)
  | .string value => return .string value
  | .char value => return .literal (.char value)
  | .date text =>
    return .call (.dotted "System.DateTime.Parse")
      [.string (Text.trim text), .dotted "System.Globalization.CultureInfo.InvariantCulture"]

/-- A piece of an interpolated string. Braces are written the same way in both languages, quotes are
not. -/
def content (inner : Inner) : Source.Content → Convert Target.Content
  | .text text => return .text (String.ofList (undoubleQuotes text.toList))
  | .hole _ value alignment format => do
    let value ← inner.value value
    return .hole value (← inner.value? alignment) format

end Inner

end Sharpen

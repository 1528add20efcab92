import Sharpen.Model.Table
import Sharpen.Source.Encode.Declarations

/-!
# Writing semantic tables as JSON

The inverse of the readers; every field is written.
-/

namespace Sharpen.Model

open Json
open Source (ImportsClause)

mutual

def TypeSymbol.toJson : TypeSymbol → Json
  | ⟨displayName, kind, special, isReferenceType, elementType, delegateReturnType, canBeNamed⟩ =>
    .obj [("display_name", .str displayName), ("kind", ofWord kind),
      ("special", ofOption ofWord special), ("is_reference_type", .bool isReferenceType),
      ("element_type", TypeSymbol.optionToJson elementType),
      ("delegate_return_type", TypeSymbol.optionToJson delegateReturnType),
      ("can_be_referenced_by_name", .bool canBeNamed)]

def TypeSymbol.optionToJson : Option TypeSymbol → Json
  | none => .null
  | some type => type.toJson

end

def ParameterSymbol.toJson (parameter : ParameterSymbol) : Json :=
  .obj [("name", .str parameter.name), ("ref_kind", ofWord parameter.refKind),
    ("is_params", .bool parameter.isParams), ("ty", TypeSymbol.optionToJson parameter.type)]

def Symbol.toJson (symbol : Symbol) : Json :=
  .obj [("name", .str symbol.name), ("kind", ofWord symbol.kind),
    ("is_indexer", .bool symbol.isIndexer), ("ty", TypeSymbol.optionToJson symbol.type),
    ("parameters", .arr (symbol.parameters.map ParameterSymbol.toJson)),
    ("containing_type", ofOption .str symbol.containingType)]

def ConstantValue.toJson : ConstantValue → Json
  | .null => .obj [("type", .str "Null")]
  | .boolean value => .obj [("type", .str "Boolean"), ("value", .bool value)]
  | .integer value => .obj [("type", .str "Integer"), ("value", .int value)]
  | .float bits => .obj [("type", .str "Float"), ("value", .float bits)]
  | .string value => .obj [("type", .str "String"), ("value", .str value)]
  | .char value => .obj [("type", .str "Char"), ("value", .str value.toString)]

def SymbolInfo.toJson (info : SymbolInfo) : Json :=
  .obj [("symbol", ofOption Symbol.toJson info.symbol),
    ("candidates", .arr (info.candidates.map Symbol.toJson))]

def TypeInfo.toJson (info : TypeInfo) : Json :=
  .obj [("ty", TypeSymbol.optionToJson info.type),
    ("converted_type", TypeSymbol.optionToJson info.convertedType)]

def NodeMap.toJson {α : Type} (encode : α → Json) (map : NodeMap α) : Json :=
  .obj (map.entries.map fun entry => (toString entry.1.toNat, encode entry.2))

def SemanticTable.toJson (table : SemanticTable) : Json :=
  .obj [("symbols", table.symbols.toJson SymbolInfo.toJson),
    ("types", table.types.toJson TypeInfo.toJson),
    ("constants", table.constants.toJson ConstantValue.toJson),
    ("declared", table.declared.toJson Symbol.toJson),
    ("scopes", table.scopes.toJson ofStrings),
    ("global_imports", .arr (table.globalImports.map ImportsClause.toJson))]

end Sharpen.Model

import Sharpen.Model.Table
import Sharpen.Source.Decode.Declarations

/-!
# Reading semantic tables from JSON

The maps of a table are objects whose names are node numbers in decimal digits.
-/

namespace Sharpen.Model

open Json (Given readRecord)
open Json.Given Json.Reader
open Source (NodeId ImportsClause)

def TypeSymbol.read? (given : Given) : Option TypeSymbol :=
  readRecord given do
    let displayName ← value "display_name" str?
    let kind ← value "kind" word?
    let special ← value? "special" word?
    let isReferenceType ← valueD "is_reference_type" false bool?
    let elementType ← (← optional "element_type").mapM fun part => TypeSymbol.read? part.1
    let delegateReturnType ←
      (← optional "delegate_return_type").mapM fun part => TypeSymbol.read? part.1
    let canBeNamed ← valueD "can_be_referenced_by_name" true bool?
    return {
      displayName, kind, special, isReferenceType, elementType, delegateReturnType, canBeNamed }
termination_by sizeOf given.json
decreasing_by all_goals exact Part.sizeOf_lt _

def ParameterSymbol.read? (given : Given) : Option ParameterSymbol :=
  readRecord given do
    let name ← value "name" str?
    let refKind ← valueD "ref_kind" .none word?
    let isParams ← valueD "is_params" false bool?
    let type ← value? "ty" TypeSymbol.read?
    return { name, refKind, isParams, type }

def Symbol.read? (given : Given) : Option Symbol :=
  readRecord given do
    let name ← value "name" str?
    let kind ← value "kind" word?
    let isIndexer ← valueD "is_indexer" false bool?
    let type ← value? "ty" TypeSymbol.read?
    let parameters ← valueD "parameters" [] (list? ParameterSymbol.read?)
    let containingType ← value? "containing_type" str?
    return { name, kind, isIndexer, type, parameters, containingType }

/-- Reads a constant: a field `type` and, unless it is `Null`, a field `value`. -/
def ConstantValue.read? (given : Given) : Option ConstantValue :=
  readRecord given <| choose "type" [
    ("Null", do
      empty "value"
      return .null),
    ("Boolean", do return .boolean (← value "value" bool?)),
    ("Integer", do return .integer (← value "value" int64?)),
    ("Float", do return .float (← value "value" floatBits?)),
    ("String", do return .string (← value "value" str?)),
    ("Char", do return .char (← value "value" char?))]

def SymbolInfo.read? (given : Given) : Option SymbolInfo :=
  readRecord given do
    let symbol ← value? "symbol" Symbol.read?
    let candidates ← valueD "candidates" [] (list? Symbol.read?)
    return { symbol, candidates }

def TypeInfo.read? (given : Given) : Option TypeInfo :=
  readRecord given do
    let type ← value? "ty" TypeSymbol.read?
    let convertedType ← value? "converted_type" TypeSymbol.read?
    return { type, convertedType }

/-- Reads a node number in decimal digits, without sign and leading zero. -/
def nodeOfKey? (key : String) : Option NodeId :=
  match key.toList with
  | [] => none
  | first :: rest =>
    let digits := first :: rest
    if digits.all Char.isDigit && (first != '0' || rest.isEmpty) then
      let number := digits.foldl (fun number digit => number * 10 + (digit.toNat - '0'.toNat)) 0
      if number < UInt32.size then some (UInt32.ofNat number) else none
    else none

/-- Reads a map from nodes; of several entries for a node the last one counts. Node numbers are
written without escapes. -/
def NodeMap.read? {α : Type} (decode : Given → Option α) (given : Given) : Option (NodeMap α) :=
  match given.json with
  | .obj fields => do
    let entries ← fields.mapM fun field => do
      return (← nodeOfKey? field.1, ← decode ⟨field.2, given.manner⟩)
    return .ofList entries
  | _ => none

def SemanticTable.read? (given : Given) : Option SemanticTable :=
  readRecord given do
    let symbols ← valueD "symbols" .empty (NodeMap.read? SymbolInfo.read?)
    let types ← valueD "types" .empty (NodeMap.read? TypeInfo.read?)
    let constants ← valueD "constants" .empty (NodeMap.read? ConstantValue.read?)
    let declared ← valueD "declared" .empty (NodeMap.read? Symbol.read?)
    let scopes ← valueD "scopes" .empty (NodeMap.read? (list? str?))
    let globalImports ← valueD "global_imports" [] (list? ImportsClause.read?)
    return { symbols, types, constants, declared, scopes, globalImports }

/-! ## Whole values -/

def TypeSymbol.ofJson? (json : Json) : Option TypeSymbol :=
  TypeSymbol.read? { json }

def ParameterSymbol.ofJson? (json : Json) : Option ParameterSymbol :=
  ParameterSymbol.read? { json }

def Symbol.ofJson? (json : Json) : Option Symbol :=
  Symbol.read? { json }

def ConstantValue.ofJson? (json : Json) : Option ConstantValue :=
  ConstantValue.read? { json }

def SymbolInfo.ofJson? (json : Json) : Option SymbolInfo :=
  SymbolInfo.read? { json }

def TypeInfo.ofJson? (json : Json) : Option TypeInfo :=
  TypeInfo.read? { json }

def SemanticTable.ofJson? (json : Json) : Option SemanticTable :=
  SemanticTable.read? { json }

end Sharpen.Model

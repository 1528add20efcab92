import Sharpen.Model.Symbol
import Sharpen.Source.Declaration

/-!
# Semantic tables

A semantic table answers questions about the nodes of one source tree: what a node stands for, which
type it has, whether it is a constant, what it declares and which names are visible there. A node
the table knows nothing about has an empty answer.

`NodeMap` maps node numbers to answers. Its entries stand in strictly increasing order of the
numbers, so that two maps with the same answers are equal.
-/

namespace Sharpen.Model

open Source (NodeId TypeSyntax ImportsClause)

/-! ## Maps from nodes -/

/-- Entries in strictly increasing order of the node numbers. -/
def Increasing {α : Type} (entries : List (NodeId × α)) : Prop :=
  entries.Pairwise fun a b => a.1 < b.1

/-- Puts a value into ordered entries, in place of one that is there for the node. -/
def insertEntry {α : Type} (node : NodeId) (value : α) : List (NodeId × α) → List (NodeId × α)
  | [] => [(node, value)]
  | (other, kept) :: rest =>
    if node < other then (node, value) :: (other, kept) :: rest
    else if node = other then (node, value) :: rest
    else (other, kept) :: insertEntry node value rest

theorem mem_insertEntry {α : Type} {node : NodeId} {value : α} {entries : List (NodeId × α)}
    {entry : NodeId × α} (h : entry ∈ insertEntry node value entries) :
    entry = (node, value) ∨ entry ∈ entries := by
  induction entries with
  | nil => simpa [insertEntry] using h
  | cons head rest ih =>
    obtain ⟨other, kept⟩ := head
    simp only [insertEntry] at h
    split at h
    · simpa using h
    · split at h
      · rcases List.mem_cons.1 h with rfl | h
        · exact .inl rfl
        · exact .inr (List.mem_cons_of_mem _ h)
      · rcases List.mem_cons.1 h with rfl | h
        · exact .inr List.mem_cons_self
        · rcases ih h with rfl | h
          · exact .inl rfl
          · exact .inr (List.mem_cons_of_mem _ h)

theorem Increasing.insertEntry {α : Type} {node : NodeId} {value : α}
    {entries : List (NodeId × α)} (h : Increasing entries) :
    Increasing (insertEntry node value entries) := by
  induction entries with
  | nil => exact List.pairwise_singleton _ _
  | cons head rest ih =>
    obtain ⟨other, kept⟩ := head
    obtain ⟨hhead, hrest⟩ := List.pairwise_cons.1 h
    simp only [Model.insertEntry]
    split
    · rename_i hlt
      refine List.pairwise_cons.2 ⟨fun entry hentry => ?_, h⟩
      rcases List.mem_cons.1 hentry with rfl | hentry
      · exact hlt
      · exact UInt32.lt_trans hlt (hhead entry hentry)
    · split
      · rename_i heq
        exact List.pairwise_cons.2 ⟨fun entry hentry => heq ▸ hhead entry hentry, hrest⟩
      · rename_i hnot hne
        refine List.pairwise_cons.2 ⟨fun entry hentry => ?_, ih hrest⟩
        rcases mem_insertEntry hentry with rfl | hentry
        · simp only [UInt32.lt_iff_toNat_lt, ← UInt32.toNat_inj] at *
          omega
        · exact hhead entry hentry

/-- A map from nodes. -/
structure NodeMap (α : Type) where
  entries : List (NodeId × α)
  increasing : Increasing entries

namespace NodeMap

/-- The map without entries. -/
def empty {α : Type} : NodeMap α :=
  ⟨[], List.Pairwise.nil⟩

instance {α : Type} : Inhabited (NodeMap α) := ⟨empty⟩

/-- The value for a node. -/
def get? {α : Type} (map : NodeMap α) (node : NodeId) : Option α :=
  (map.entries.find? fun entry => entry.1 == node).map Prod.snd

/-- The map with a value for a node, in place of the one it had. -/
def insert {α : Type} (map : NodeMap α) (node : NodeId) (value : α) : NodeMap α :=
  ⟨insertEntry node value map.entries, map.increasing.insertEntry⟩

/-- The map of several entries, later ones replacing earlier ones. -/
def ofList {α : Type} (entries : List (NodeId × α)) : NodeMap α :=
  entries.foldl (fun map entry => map.insert entry.1 entry.2) empty

end NodeMap

/-! ## Tables -/

/-- What a node stands for. When several symbols were considered and none was chosen, they are the
candidates. -/
structure SymbolInfo where
  symbol : Option Symbol := none
  candidates : List Symbol := []
  deriving Inhabited

/-- The type of an expression before and after the conversion that its place demands. -/
structure TypeInfo where
  type : Option TypeSymbol := none
  convertedType : Option TypeSymbol := none
  deriving Inhabited

/-- The answers about one source tree. -/
structure SemanticTable where
  symbols : NodeMap SymbolInfo := .empty
  types : NodeMap TypeInfo := .empty
  constants : NodeMap ConstantValue := .empty
  declared : NodeMap Symbol := .empty
  scopes : NodeMap (List String) := .empty
  globalImports : List ImportsClause := []
  deriving Inhabited

namespace SemanticTable

/-! ### Recording answers -/

/-- Records what a node stands for. -/
def setSymbol (table : SemanticTable) (node : NodeId) (symbol : Symbol) : SemanticTable :=
  { table with symbols := table.symbols.insert node { symbol := some symbol } }

/-- Records the symbols among which none was chosen. -/
def setCandidates (table : SemanticTable) (node : NodeId) (candidates : List Symbol) :
    SemanticTable :=
  { table with symbols := table.symbols.insert node { candidates } }

/-- Records the type of a node, which is also the converted type unless that is known. -/
def setType (table : SemanticTable) (node : NodeId) (type : TypeSymbol) : SemanticTable :=
  let known := (table.types.get? node).getD {}
  let info := { type := some type, convertedType := known.convertedType.or (some type) }
  { table with types := table.types.insert node info }

/-- Records the type after conversion. -/
def setConvertedType (table : SemanticTable) (node : NodeId) (type : TypeSymbol) : SemanticTable :=
  let known := (table.types.get? node).getD {}
  { table with types := table.types.insert node { known with convertedType := some type } }

/-- Records the value of a constant expression. -/
def setConstant (table : SemanticTable) (node : NodeId) (value : ConstantValue) : SemanticTable :=
  { table with constants := table.constants.insert node value }

/-- Records what a node declares. -/
def setDeclared (table : SemanticTable) (node : NodeId) (symbol : Symbol) : SemanticTable :=
  { table with declared := table.declared.insert node symbol }

/-- Records further names that are visible at a node. -/
def addNamesInScope (table : SemanticTable) (node : NodeId) (names : List String) : SemanticTable :=
  let known := (table.scopes.get? node).getD []
  { table with scopes := table.scopes.insert node (known ++ names) }

/-- Records the imports of the whole compilation. -/
def setGlobalImports (table : SemanticTable) (imports : List ImportsClause) : SemanticTable :=
  { table with globalImports := imports }

/-! ### Asking -/

def symbolInfo (table : SemanticTable) (node : NodeId) : SymbolInfo :=
  (table.symbols.get? node).getD {}

def typeInfo (table : SemanticTable) (node : NodeId) : TypeInfo :=
  (table.types.get? node).getD {}

def constant? (table : SemanticTable) (node : NodeId) : Option ConstantValue :=
  table.constants.get? node

def declaredSymbol? (table : SemanticTable) (node : NodeId) : Option Symbol :=
  table.declared.get? node

def namesInScope (table : SemanticTable) (node : NodeId) : List String :=
  (table.scopes.get? node).getD []

/-- What a node stands for; a single candidate counts. -/
def resolve? (table : SemanticTable) (node : NodeId) : Option Symbol :=
  let info := table.symbolInfo node
  match info.symbol, info.candidates with
  | some symbol, _ => some symbol
  | none, [candidate] => some candidate
  | none, _ => none

def expressionType? (table : SemanticTable) (node : NodeId) : Option TypeSymbol :=
  (table.typeInfo node).type

def convertedType? (table : SemanticTable) (node : NodeId) : Option TypeSymbol :=
  (table.typeInfo node).convertedType

def integer? (table : SemanticTable) (node : NodeId) : Option Int :=
  (table.constant? node).bind ConstantValue.integer?

/-- Whether a name is visible at a node. Names do not distinguish case. -/
def isNameInScope (table : SemanticTable) (node : NodeId) (name : String) : Bool :=
  (table.namesInScope node).any fun known => Text.sameIgnoringCase known name

/-- The type that type syntax stands for. Keywords and arrays of known types need no answer from the
table. -/
def typeOf? (table : SemanticTable) : TypeSyntax → Option TypeSymbol
  | .predefined id keyword =>
    (table.expressionType? id).or (some (.ofSpecial (.ofKeyword keyword)))
  | .named name => table.expressionType? name.id
  | .array id element _ =>
    (table.expressionType? id).or ((table.typeOf? element).map .arrayOf)
  | .nullable id _ => table.expressionType? id

end SemanticTable

end Sharpen.Model

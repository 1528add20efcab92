import Mathlib.Data.List.Induction
import Mathlib.Data.List.Sort
import Sharpen.Model.Table

/-!
# Tables by their history

A table is filled by recording answers one after the other. What it knows about a node afterwards
can be told from the records about this node alone (`SemanticTable.entry_ofHistory`): the last one
of each kind counts, but the names that are visible pile up, and the first type of a node is its
converted type as long as no converted type is recorded.

Maps from nodes are equal if they have the same values, so tables are equal if they know the same
about every node. The main result is `tables_answer_from_their_history`.
-/

namespace Sharpen.Model

open List

open Source (NodeId ImportsClause)

/-! ## Maps from nodes -/

namespace NodeMap

variable {α : Type}

@[simp] theorem get?_insert (map : NodeMap α) (node other : NodeId) (value : α) :
    (map.insert node value).get? other = if node = other then some value else map.get? other := by
  unfold get? insert
  dsimp only
  generalize map.entries = entries
  induction entries with
  | nil => by_cases h : node = other <;> simp [insertEntry, h]
  | cons entry rest ih =>
    obtain ⟨first⟩ := entry
    rw [insertEntry]
    split
    · by_cases h : node = other <;> simp [h]
    split
    · next heq => by_cases h : node = other <;> simp [← heq, h]
    · next hne =>
      by_cases h : first = other
      · simp [h, h ▸ hne]
      · simpa [h] using ih

theorem get?_eq_some_iff {map : NodeMap α} {node : NodeId} {value : α} :
    map.get? node = some value ↔ (node, value) ∈ map.entries := by
  obtain ⟨entries, hincreasing⟩ := map
  unfold get?
  dsimp only
  induction entries with
  | nil => simp
  | cons entry rest ih =>
    obtain ⟨hentry, hrest⟩ := pairwise_cons.mp hincreasing
    obtain ⟨first⟩ := entry
    by_cases h : first = node
    · have hnot : (node, value) ∉ rest := fun hmem => UInt32.lt_irrefl _ (h ▸ hentry _ hmem)
      simp [h, hnot, eq_comm]
    · simp [h, Ne.symm h, ih hrest]

/-- Maps with the same values are equal. -/
theorem ext_get? {a b : NodeMap α} (h : ∀ node, a.get? node = b.get? node) : a = b := by
  have hentries : a.entries = b.entries := by
    have : Std.Irrefl fun x y : NodeId × α => x.1 < y.1 := ⟨fun x => UInt32.lt_irrefl x.1⟩
    have : Std.Asymm fun x y : NodeId × α => x.1 < y.1 := ⟨fun x y => UInt32.lt_asymm⟩
    refine a.increasing.eq_of_mem_iff b.increasing fun ⟨node, value⟩ => ?_
    rw [← get?_eq_some_iff, ← get?_eq_some_iff, h]
  cases a
  cases b
  cases hentries
  rfl

end NodeMap

/-! ## Records -/

theorem filterMap_concat {α β : Type} (f : α → Option β) (items : List α) (last : α) :
    (items ++ [last]).filterMap f = items.filterMap f ++ (f last).toList := by
  cases hlast : f last <;> simp [hlast]

/-- An answer about a node. -/
inductive Answer where
  | symbol (found : Symbol)
  | candidates (found : List Symbol)
  | type (type : TypeSymbol)
  | convertedType (type : TypeSymbol)
  | constant (value : ConstantValue)
  | declared (found : Symbol)
  | names (visible : List String)

namespace Answer

def symbolInfo? : Answer → Option SymbolInfo
  | symbol found => some { symbol := some found }
  | candidates found => some { candidates := found }
  | _ => none

def type? : Answer → Option TypeSymbol
  | .type found => some found
  | _ => none

def convertedType? : Answer → Option TypeSymbol
  | .convertedType found => some found
  | _ => none

def constant? : Answer → Option ConstantValue
  | constant value => some value
  | _ => none

def declared? : Answer → Option Symbol
  | declared found => some found
  | _ => none

def names? : Answer → Option (List String)
  | names visible => some visible
  | _ => none

end Answer

/-- What is recorded in a table: an answer about a node, or the imports of the whole compilation. -/
inductive Record where
  | about (node : NodeId) (answer : Answer)
  | imports (clauses : List ImportsClause)

namespace Record

/-- The answer that a record gives about a node. -/
def about? (node : NodeId) : Record → Option Answer
  | .about other answer => if other = node then some answer else none
  | .imports _ => none

def imports? : Record → Option (List ImportsClause)
  | .imports clauses => some clauses
  | _ => none

end Record

/-- The answers about a node that some records give. -/
def answersAbout (node : NodeId) (history : List Record) : List Answer :=
  history.filterMap (Record.about? node)

/-- What a table has for one node. -/
structure Entry where
  symbolInfo : Option SymbolInfo
  typeInfo : Option TypeInfo
  constant : Option ConstantValue
  declared : Option Symbol
  names : Option (List String)

/-- The type is the last one. The converted type is the last converted one, or else the first type.
-/
def typeInfoOf? (types converted : List TypeSymbol) : Option TypeInfo :=
  if types.isEmpty && converted.isEmpty then none
  else some { type := types.getLast?, convertedType := converted.getLast?.or types.head? }

theorem typeInfoOf?_type (types converted : List TypeSymbol) (type : TypeSymbol) :
    typeInfoOf? (types ++ [type]) converted = some {
      type := some type
      convertedType := ((typeInfoOf? types converted).getD {}).convertedType.or (some type) } := by
  cases types <;> cases converted <;> simp [typeInfoOf?, List.getLast?_cons]

theorem typeInfoOf?_converted (types converted : List TypeSymbol) (type : TypeSymbol) :
    typeInfoOf? types (converted ++ [type]) =
      some { (typeInfoOf? types converted).getD {} with convertedType := some type } := by
  cases types <;> cases converted <;> simp [typeInfoOf?, List.getLast?_cons]

/-- Names pile up. -/
def namesOf? (lists : List (List String)) : Option (List String) :=
  if lists.isEmpty then none else some lists.flatten

theorem namesOf?_concat (lists : List (List String)) (names : List String) :
    namesOf? (lists ++ [names]) = some ((namesOf? lists).getD [] ++ names) := by
  cases lists <;> simp [namesOf?]

/-- What answers about one node amount to. -/
def Entry.ofAnswers (answers : List Answer) : Entry where
  symbolInfo := (answers.filterMap Answer.symbolInfo?).getLast?
  typeInfo := typeInfoOf? (answers.filterMap Answer.type?) (answers.filterMap Answer.convertedType?)
  constant := (answers.filterMap Answer.constant?).getLast?
  declared := (answers.filterMap Answer.declared?).getLast?
  names := namesOf? (answers.filterMap Answer.names?)

namespace SemanticTable

/-- The table with one more answer. -/
def answer (table : SemanticTable) (node : NodeId) : Answer → SemanticTable
  | .symbol found => table.setSymbol node found
  | .candidates found => table.setCandidates node found
  | .type found => table.setType node found
  | .convertedType found => table.setConvertedType node found
  | .constant value => table.setConstant node value
  | .declared found => table.setDeclared node found
  | .names visible => table.addNamesInScope node visible

/-- The table with one more record. -/
def record (table : SemanticTable) : Record → SemanticTable
  | .about node answer => table.answer node answer
  | .imports clauses => table.setGlobalImports clauses

/-- The table after some records. -/
def ofHistory (history : List Record) : SemanticTable :=
  history.foldl record {}

/-- What a table has for a node. -/
def entry (table : SemanticTable) (node : NodeId) : Entry where
  symbolInfo := table.symbols.get? node
  typeInfo := table.types.get? node
  constant := table.constants.get? node
  declared := table.declared.get? node
  names := table.scopes.get? node

variable (table : SemanticTable)

/-- An answer changes nothing for other nodes. -/
theorem entry_answer_of_ne {node other : NodeId} (h : other ≠ node) (answer : Answer) :
    (table.answer other answer).entry node = table.entry node := by
  cases answer <;>
    simp [entry, SemanticTable.answer, setSymbol, setCandidates, setType, setConvertedType,
      setConstant, setDeclared, addNamesInScope, h]

/-- An answer comes on top of those that are there. -/
theorem entry_answer {node : NodeId} {answers : List Answer}
    (h : table.entry node = .ofAnswers answers) (answer : Answer) :
    (table.answer node answer).entry node = .ofAnswers (answers ++ [answer]) := by
  simp only [entry, Entry.ofAnswers, Entry.mk.injEq, filterMap_concat] at h ⊢
  cases answer <;>
    simp [SemanticTable.answer, setSymbol, setCandidates, setType, setConvertedType, setConstant,
      setDeclared, addNamesInScope, Answer.symbolInfo?, Answer.type?, Answer.convertedType?,
      Answer.constant?, Answer.declared?, Answer.names?, typeInfoOf?_type, typeInfoOf?_converted,
      namesOf?_concat, h]

theorem ofHistory_concat (history : List Record) (last : Record) :
    ofHistory (history ++ [last]) = (ofHistory history).record last :=
  foldl_concat ..

/-- What a table has for a node is what the answers about this node amount to. -/
theorem entry_ofHistory (history : List Record) (node : NodeId) :
    (ofHistory history).entry node = .ofAnswers (answersAbout node history) := by
  induction history using List.reverseRecOn with
  | nil => rfl
  | append_singleton _ last ih =>
    rw [ofHistory_concat, answersAbout, filterMap_concat]
    cases last with
    | imports => exact ih.trans (congrArg _ (append_nil _).symm)
    | about other answer =>
      by_cases h : other = node
      · rw [Record.about?, if_pos h, h]
        exact entry_answer _ ih answer
      · rw [Record.about?, if_neg h, Option.toList_none, append_nil]
        exact (entry_answer_of_ne _ h answer).trans ih

theorem globalImports_ofHistory (history : List Record) :
    (ofHistory history).globalImports = (history.filterMap Record.imports?).getLast?.getD [] := by
  induction history using List.reverseRecOn with
  | nil => rfl
  | append_singleton _ last ih =>
    rw [ofHistory_concat, filterMap_concat]
    cases last with
    | imports => simp [record, setGlobalImports, Record.imports?]
    | about node answer =>
      rw [show Record.imports? (.about node answer) = none from rfl, Option.toList_none,
        append_nil, ← ih]
      cases answer <;> rfl

/-- Histories that amount to the same for every node lead to the same table. -/
theorem ofHistory_congr {history other : List Record}
    (hanswers : ∀ node, Entry.ofAnswers (answersAbout node history) =
      .ofAnswers (answersAbout node other))
    (himports : history.filterMap Record.imports? = other.filterMap Record.imports?) :
    ofHistory history = ofHistory other := by
  have hentry (node : NodeId) : (ofHistory history).entry node = (ofHistory other).entry node := by
    rw [entry_ofHistory, entry_ofHistory, hanswers]
  have hclauses : (ofHistory history).globalImports = (ofHistory other).globalImports := by
    rw [globalImports_ofHistory, globalImports_ofHistory, himports]
  generalize ofHistory history = a, ofHistory other = b at hentry hclauses
  cases a
  cases b
  simp only [entry, Entry.mk.injEq, forall_and] at hentry
  obtain ⟨hsymbols, htypes, hconstants, hdeclared, hscopes⟩ := hentry
  rw [NodeMap.ext_get? hsymbols, NodeMap.ext_get? htypes, NodeMap.ext_get? hconstants,
    NodeMap.ext_get? hdeclared, NodeMap.ext_get? hscopes]
  exact congrArg _ hclauses

/-- **Tables answer from their history.** What a table answers about a node after some records
depends on the answers about this node only, and on those of the kind that is asked for. What it
stands for, its type, its value and what it declares are the last ones that were recorded. Its
converted type is the last one that was recorded as such, or else the first type. The names that are
visible are all those that were recorded.

So answers about different nodes can change places, and so can a type and a converted type of the
same node. -/
theorem tables_answer_from_their_history (history : List Record) (node : NodeId) :
    (ofHistory history).symbolInfo node =
      ((answersAbout node history).filterMap Answer.symbolInfo?).getLast?.getD {} ∧
    (ofHistory history).typeInfo node = {
      type := ((answersAbout node history).filterMap Answer.type?).getLast?
      convertedType := ((answersAbout node history).filterMap Answer.convertedType?).getLast?.or
        ((answersAbout node history).filterMap Answer.type?).head? } ∧
    (ofHistory history).constant? node =
      ((answersAbout node history).filterMap Answer.constant?).getLast? ∧
    (ofHistory history).declaredSymbol? node =
      ((answersAbout node history).filterMap Answer.declared?).getLast? ∧
    (ofHistory history).namesInScope node =
      ((answersAbout node history).filterMap Answer.names?).flatten ∧
    (∀ later other answer answer', other ≠ node →
      ofHistory (history ++ .about node answer :: .about other answer' :: later) =
        ofHistory (history ++ .about other answer' :: .about node answer :: later)) ∧
    ∀ later type converted,
      ofHistory (history ++ .about node (.type type) :: .about node (.convertedType converted) ::
        later) =
        ofHistory (history ++ .about node (.convertedType converted) ::
          .about node (.type type) :: later) := by
  have hentry := entry_ofHistory history node
  simp only [entry, Entry.ofAnswers, Entry.mk.injEq] at hentry
  obtain ⟨hsymbols, htypes, hconstants, hdeclared, hscopes⟩ := hentry
  refine ⟨?_, ?_, hconstants, hdeclared, ?_, fun later other answer answer' hne => ?_,
    fun later type converted => ?_⟩
  · rw [symbolInfo, hsymbols]
  · rw [typeInfo, htypes, typeInfoOf?]
    split <;> simp_all
  · rw [namesInScope, hscopes, namesOf?]
    split <;> simp_all
  · refine ofHistory_congr (fun n => ?_) (by simp [filterMap_cons, Record.imports?])
    by_cases hnode : node = n
    · have hother : other ≠ n := fun h => hne (h.trans hnode.symm)
      simp [answersAbout, Record.about?, hnode, hother]
    · simp [answersAbout, filterMap_cons, Record.about?, hnode]
  · refine ofHistory_congr (fun n => ?_) (by simp [filterMap_cons, Record.imports?])
    by_cases hnode : node = n
    · simp [answersAbout, Entry.ofAnswers, filterMap_cons, Record.about?, hnode, Answer.symbolInfo?,
        Answer.type?, Answer.convertedType?, Answer.constant?, Answer.declared?, Answer.names?]
    · simp [answersAbout, Record.about?, hnode]

/-- Two answers change places behind earlier ones about the same nodes: a value replaces the earlier
one, and names are added to the earlier ones, either way. -/
theorem answers_about_two_nodes_change_places :
    let earlier : List Record := [.about 2 (.constant (.boolean false)), .about 1 (.names ["b"])]
    let table :=
      ofHistory (earlier ++ [.about 1 (.names ["a"]), .about 2 (.constant (.boolean true))])
    (2 : NodeId) ≠ 1 ∧
      table = ofHistory (earlier ++ [.about 2 (.constant (.boolean true)),
        .about 1 (.names ["a"])]) ∧
      table.constant? 2 = some (.boolean true) ∧ table.namesInScope 1 = ["b", "a"] := by
  intro earlier table
  have hanswers := tables_answer_from_their_history earlier 1
  exact ⟨by decide, hanswers.2.2.2.2.2.1 [] 2 _ _ (by decide), rfl, rfl⟩

end SemanticTable

end Sharpen.Model

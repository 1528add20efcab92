import Sharpen.Proofs.Correspondence.Levels
import Sharpen.Proofs.Renumbering.Laws

/-!
# Units with other numbers

The numbers of the nodes carry no meaning of their own: they lead to the answers of the table, and
nowhere else. If the nodes get other numbers, and another table answers about the new numbers what
the first one answered about the old ones, then a unit is converted to the same tree, or declined
with the same error. What a table says about numbers that occur nowhere in the unit is never asked
for.
-/

namespace Sharpen

open List

open Source (NodeId CompilationUnit ImportsClause)
open Model (SemanticTable Symbol TypeSymbol)

variable {f : NodeId → NodeId} {table table' : SemanticTable}

/-! ## Tables for other numbers -/

namespace Model

/-- The map that has for a number what another one has for its new number. -/
noncomputable def NodeMap.pull {α : Type} (f : NodeId → NodeId) (map : NodeMap α) : NodeMap α where
  entries := Source.allNodes.filterMap fun n => (map.get? (f n)).map (n, ·)
  increasing := by
    refine pairwise_filterMap.mpr (Source.pairwise_allNodes.imp fun hlt _ hfirst _ hsecond => ?_)
    obtain ⟨_, _, rfl⟩ := Option.map_eq_some_iff.mp hfirst
    obtain ⟨_, _, rfl⟩ := Option.map_eq_some_iff.mp hsecond
    exact hlt

theorem NodeMap.get?_pull {α : Type} (map : NodeMap α) (n : NodeId) :
    (map.pull f).get? n = map.get? (f n) := by
  have hfound (a : NodeId) : ((map.get? (f a)).map (a, ·)).any (fun entry => entry.1 == n) =
      (a == n && (map.get? (f n)).isSome) := by
    by_cases ha : a = n
    · rw [ha, Option.any_map]
      cases map.get? (f n) <;> simp
    · rw [Option.any_map, beq_eq_false_iff_ne.mpr ha]
      cases map.get? (f a) <;> simp [ha]
  rw [get?, pull, List.find?_filterMap, funext hfound]
  cases hvalue : map.get? (f n) with
  | none =>
    rw [List.find?_eq_none.mpr fun a _ => by simp]
    rfl
  | some value =>
    cases hfind : Source.allNodes.find? fun a => a == n && (some value).isSome with
    | none => simpa using List.find?_eq_none.mp hfind n (Source.mem_allNodes n)
    | some a =>
      obtain rfl : a = n := by simpa using List.find?_some hfind
      simp [hvalue]

/-- The table that answers about a number what another one answers about its new number. -/
noncomputable def SemanticTable.pull (f : NodeId → NodeId) (table : SemanticTable) :
    SemanticTable where
  symbols := table.symbols.pull f
  types := table.types.pull f
  constants := table.constants.pull f
  declared := table.declared.pull f
  scopes := table.scopes.pull f
  globalImports := table.globalImports

theorem SemanticTable.answers_pull (table : SemanticTable) (n : NodeId) :
    (table.pull f).answers n = table.answers (f n) := by
  simp only [answers, pull, symbolInfo, typeInfo, constant?, declaredSymbol?, namesInScope,
    NodeMap.get?_pull]

end Model

/-! ## All levels -/

/-- Converters whose tables answer the same do the same. A node is taken apart by its rule, and what
is inside it is left to the converters of one level less. -/
theorem Inner.at_renumber (options : Options)
    (hanswers : ∀ n, table.answers (f n) = table'.answers n) (levels : Nat)
    (construct : Source.Construct) :
    equality.OnConstruct ((Inner.at { table, options } levels).via f)
      (Inner.at { table := table', options } levels) construct := by
  induction levels generalizing construct with
  | zero =>
    cases construct with
    | expr node => exact fun _ => congrArg Convert.tooDeep (node.kindName_renumber f)
    | statement node =>
      cases node
      exact fun _ => congrArg Convert.tooDeep (Source.StatementKind.kindName_renumber f _)
    | declaration node =>
      cases node
      exact congrArg Convert.tooDeep (Source.DeclarationKind.kindName_renumber f _)
  | succ levels ih =>
    have halike :
      (Inner.at { table, options } levels).Alike f (Inner.at { table := table', options } levels) :=
      ⟨by simp, by simpa [Inner.table] using hanswers⟩
    cases construct with
    | expr node =>
      exact fun allowed =>
        congrArg Convert.nested (Renumbered.anyExpr (C := equality.toCorrespondence) halike
        (fun part _ => ih (.expr part)) fun body _ part _ => ih (.statement part) body)
    | statement node =>
      intro body
      have hrule : equality.Rel ((node.renumber f).convertKind _ body) (node.convertKind _ body) :=
        Renumbered.anyStatement halike (fun part _ => ih (.expr part)) fun part _ =>
          ih (.statement part) _
      cases node
      exact equality.map (equality.nested hrule) _
    | declaration node =>
      exact congrArg Convert.nested (Renumbered.declaration (C := equality.toCorrespondence) halike
        (fun part _ => ih (.expr part)) (fun body _ part _ => ih (.statement part) body)
        fun part _ => ih (.declaration part))

/-! ## Whole units -/

/-- The same clauses, up to the numbers in them. -/
def SameImports (clauses clauses' : List ImportsClause) : Prop :=
  clauses.map (ImportsClause.renumber fun _ => 0) = clauses'.map (ImportsClause.renumber fun _ => 0)

theorem SameImports.convert {clauses clauses' : List ImportsClause}
    (h : SameImports clauses clauses') :
    (clauses.mapM fun clause => (clause.convert : Convert Target.UsingDirective)) =
      clauses'.mapM fun clause => (clause.convert : Convert Target.UsingDirective) := by
  have hplain (clauses : List ImportsClause) :
      ((clauses.map (ImportsClause.renumber fun _ => 0)).mapM fun clause =>
          (clause.convert : Convert Target.UsingDirective)) =
        clauses.mapM fun clause => (clause.convert : Convert Target.UsingDirective) := by
    rw [mapM_map]
    simp only [Function.comp_def, ImportsClause.convert_renumber]
  rw [← hplain clauses, ← hplain clauses', h]

/-- A unit is converted to the same with other numbers if the tables answer the same about all of
them. -/
theorem convertUnit_renumber (options : Options)
    (himports : SameImports table.globalImports table'.globalImports)
    (hanswers : ∀ n, table.answers (f n) = table'.answers n) (unit : CompilationUnit) :
    convertUnit { table, options } (unit.renumber f) =
      convertUnit { table := table', options } unit := by
  unfold convertUnit Inner.current CompilationUnit.renumber
  simp only [mapM_append, himports.convert, mapM_map, Function.comp_def,
    ImportsClause.convert_renumber, bind_assoc, pure_bind]
  refine bind_congr fun around => ?_
  have h := Inner.at_renumber options hanswers (depthLimit - around.depth)
  refine bind_congr fun shared => bind_congr fun own => ?_
  refine equality.bind (Renumbered.attributes fun part _ => h (.expr part)) fun attributes => ?_
  exact equality.map (Renumbered.members fun part _ => h (.declaration part)) _

/-- A unit with other numbers is converted like the unit itself by a table that answers for them. -/
theorem convertUnit_pull {g : NodeId → NodeId} (options : Options)
    (himports : SameImports table.globalImports table'.globalImports)
    (hanswers : ∀ n, table.answers (f n) = table'.answers (g n)) (unit : CompilationUnit) :
    convertUnit { table, options } (unit.renumber f) =
      convertUnit { table := table'.pull g, options } unit := by
  refine convertUnit_renumber options ?_ (fun n => ?_) unit
  · rwa [SemanticTable.pull]
  · rw [table'.answers_pull, hanswers]

/-- **Node numbers carry no meaning.** Let a unit get other numbers, and let another table have the
same imports and answer about the new number of each node of the unit what the first one answers
about its old number. Then the unit is converted to the same. In particular, a table that differs
only in what it answers about numbers that do not occur in the unit leads to the same. -/
theorem node_numbers_carry_no_meaning (options : Options) (unit : CompilationUnit)
    (table table' : SemanticTable)
    (himports : SameImports table'.globalImports table.globalImports) :
    (∀ r : NodeId → NodeId, (∀ n, unit.Mentions n → table'.answers (r n) = table.answers n) →
      convertUnit { table := table', options } (unit.renumber r) =
        convertUnit { table, options } unit) ∧
    ((∀ n, unit.Mentions n → table'.answers n = table.answers n) →
      convertUnit { table := table', options } unit = convertUnit { table, options } unit) := by
  have hsame {table : SemanticTable} :
      convertUnit { table, options } (unit.renumber fun n => n) =
        convertUnit { table, options } unit :=
    convertUnit_renumber options rfl (fun _ => rfl) unit
  have hrenamed (r : NodeId → NodeId) (hanswers : ∀ n, unit.Mentions n → table'.answers (r n) =
    table.answers n) :
      convertUnit { table := table', options } (unit.renumber r) =
        convertUnit { table, options } unit := by
    -- The tables need not agree on all numbers, but they do on what is left of them in the unit.
    have hnew := convertUnit_pull options himports
      (fun n => hanswers (unit.occurring n) (unit.mentions_occurring n)) unit
    have hold :=
      convertUnit_pull options (rfl : SameImports table.globalImports table.globalImports)
      (fun n => (rfl : table.answers (unit.occurring n) = table.answers (unit.occurring n))) unit
    rw [unit.renumber_occurring r] at hnew
    rw [unit.renumber_occurring fun n => n, hsame] at hold
    exact hnew.trans hold.symm
  refine ⟨hrenamed, fun hanswers => ?_⟩
  rw [← hrenamed (fun n => n) hanswers, hsame]

/-- The type of a field is found under the number that its name has now, whatever is said about
other numbers. -/
theorem field_type_under_another_number :
    let total (kind : Model.SpecialType) : Symbol :=
      { Symbol.named "total" .field with type := some (TypeSymbol.ofSpecial kind) }
    let unit (whole field name : NodeId) : CompilationUnit :=
      ⟨whole, [], [],
        [⟨field, .field [] [] [⟨[⟨name, "total", false, none, []⟩], .absent, none⟩], {}⟩]⟩
    let table : SemanticTable := SemanticTable.setDeclared {} 3 (total .int32)
    let moved : SemanticTable := SemanticTable.setDeclared (.setDeclared {} 13 (total .int32)) 3
      (total .string)
    let more : SemanticTable := table.setDeclared 9 (total .string)
    convertUnit { table := moved } (unit 11 12 13) = convertUnit { table } (unit 1 2 3) ∧
      convertUnit { table := more } (unit 1 2 3) = convertUnit { table } (unit 1 2 3) ∧
      (convertUnit { table } (unit 1 2 3)).result =
        .ok ⟨[], [], [.field [] [] ⟨.predefined .int, [⟨"total", none⟩]⟩]⟩ := by
  intro total unit table moved more
  have hrenumber (f : NodeId → NodeId) : (unit 1 2 3).renumber f = unit (f 1) (f 2) (f 3) := rfl
  have hmentioned (n : NodeId) (hn : (unit 1 2 3).Mentions n) : n = 1 ∨ n = 2 ∨ n = 3 := by
    obtain ⟨_, _, hfg, hne⟩ := hn
    by_contra hother
    rw [not_or, not_or] at hother
    obtain ⟨h1, h2, h3⟩ := hother
    refine hne ?_
    rw [hrenumber, hrenumber, hfg 1 (Ne.symm h1), hfg 2 (Ne.symm h2), hfg 3 (Ne.symm h3)]
  refine ⟨?_, ?_, ?_⟩
  · refine (node_numbers_carry_no_meaning {} (unit 1 2 3) table moved rfl).1 (· + 10) fun n hn => ?_
    obtain rfl | rfl | rfl := hmentioned n hn <;> rfl
  · refine (node_numbers_carry_no_meaning {} (unit 1 2 3) table more rfl).2 fun n hn => ?_
    obtain rfl | rfl | rfl := hmentioned n hn <;> rfl
  · rfl

end Sharpen

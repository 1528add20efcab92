import Sharpen.Batch
import Sharpen.Proofs.Exchange.Declarations

/-!
# Tables and units are read back

The answers of a semantic table are read back like the trees. A map from nodes is an object whose
names are numbers, so that a number has to be read back from its digits (`nodeOfKey?_toString`) and
a map from its entries (`NodeMap.ofList_entries`).

An integer constant is held in sixty-four bits where it is written; `ConstantValue.Fits` says so,
and whatever is read has it (`Yields`). The main statement, `reading_undoes_writing`, is about every
type that is exchanged.
-/

namespace Sharpen

open Json List

variable {α : Type} {read : Given → Option α} {write : α → Json}
  {entries : List (Source.NodeId × α)}
  {map : Model.NodeMap α}

namespace Model

instance : Vocabulary.Lawful SpecialType where
instance : Vocabulary.Lawful TypeKind where
instance : Vocabulary.Lawful SymbolKind where
instance : Vocabulary.Lawful RefKind where

/-! ## Symbols and types -/

mutual

theorem TypeSymbol.exchanged : (type : TypeSymbol) → Exchanged TypeSymbol.read? type.toJson type
  | ⟨displayName, kind, special, isReferenceType, elementType, delegateReturnType, canBeNamed⟩ =>
    .record TypeSymbol.read?.eq_1 fun _ =>
      .value (exchanged_str displayName) <| .value (exchanged_word kind) <|
      .value? (.ofOption special exchanged_word) <| .valueD (exchanged_bool isReferenceType) <|
      .part? (TypeSymbol.exchanged_option elementType) <|
      .part? (TypeSymbol.exchanged_option delegateReturnType) <|
        .valueD (exchanged_bool canBeNamed) .done

theorem TypeSymbol.exchanged_option : (type? : Option TypeSymbol) →
    ExchangedOption TypeSymbol.read? (TypeSymbol.optionToJson type?) type?
  | none => .none
  | some type => .some type.exchanged

end

theorem ParameterSymbol.exchanged (parameter : ParameterSymbol) :
    Exchanged ParameterSymbol.read? parameter.toJson parameter :=
  .record (fun _ => rfl) fun _ =>
    .value (exchanged_str parameter.name) <| .valueD (exchanged_word parameter.refKind) <|
    .valueD (exchanged_bool parameter.isParams) <|
      .value? (TypeSymbol.exchanged_option parameter.type) .done

theorem Symbol.exchanged (symbol : Symbol) : Exchanged Symbol.read? symbol.toJson symbol :=
  .record (fun _ => rfl) fun _ =>
    .value (exchanged_str symbol.name) <| .value (exchanged_word symbol.kind) <|
    .valueD (exchanged_bool symbol.isIndexer) <|
      .value? (TypeSymbol.exchanged_option symbol.type) <|
    .valueD (exchanged_map symbol.parameters fun parameter _ => parameter.exchanged) <|
    .value? (.ofOption symbol.containingType exchanged_str) .done

theorem SymbolInfo.exchanged (info : SymbolInfo) : Exchanged SymbolInfo.read? info.toJson info :=
  .record (fun _ => rfl) fun _ =>
    .value? (.ofOption info.symbol Symbol.exchanged) <|
    .valueD (exchanged_map info.candidates fun symbol _ => symbol.exchanged) .done

theorem TypeInfo.exchanged (info : TypeInfo) : Exchanged TypeInfo.read? info.toJson info :=
  .record (fun _ => rfl) fun _ =>
    .value? (TypeSymbol.exchanged_option info.type) <|
    .value? (TypeSymbol.exchanged_option info.convertedType) .done

/-- An integer constant fits sixty-four bits. -/
def ConstantValue.Fits : ConstantValue → Prop
  | .integer value => -9223372036854775808 ≤ value ∧ value < 9223372036854775808
  | _ => True

theorem ConstantValue.exchanged : (value : ConstantValue) → value.Fits →
    Exchanged ConstantValue.read? value.toJson value
  | .null, _ => ⟨rfl, nofun, fun _ => rfl⟩
  | .boolean value, _ =>
    .record (fun _ => rfl) fun _ => .choose rfl <| .value (exchanged_bool value) .done
  | .integer _, ⟨hlow, hhigh⟩ =>
    .record (fun _ => rfl) fun _ => .choose rfl <| .value (exchanged_int64 hlow hhigh) .done
  | .float bits, _ =>
    .record (fun _ => rfl) fun _ => .choose rfl <| .value (exchanged_floatBits bits) .done
  | .string value, _ =>
    .record (fun _ => rfl) fun _ => .choose rfl <| .value (exchanged_str value) .done
  | .char value, _ =>
    .record (fun _ => rfl) fun _ => .choose rfl <| .value (exchanged_char value) .done

/-! ## Maps from nodes -/

/-- A number above zero is not written with a zero in front. -/
theorem head_toDigits_ne_zero {number : Nat} (hpos : 0 < number) :
    ∃ first rest, Nat.toDigits 10 number = first :: rest ∧ first ≠ '0' := by
  induction number using Nat.strongRecOn with
  | ind number ih =>
    rw [Nat.toDigits_eq_if (by omega)]
    split
    case isTrue hlt =>
      refine ⟨_, [], rfl, fun hzero => ?_⟩
      have hchar := congrArg Char.toNat hzero
      rw [Nat.toNat_digitChar_of_lt_ten hlt] at hchar
      exact absurd hchar (by simp; omega)
    case isFalse hge =>
      obtain ⟨first, _, hdigits, hfirst⟩ := ih (number / 10) (by omega) (by omega)
      exact ⟨first, _, by rw [hdigits, cons_append], hfirst⟩

theorem nodeOfKey?_toString (node : Source.NodeId) :
    nodeOfKey? (toString node.toNat) = some node := by
  have hdigits : (toString node.toNat).toList = Nat.toDigits 10 node.toNat := by
    rw [Nat.toString_eq_repr, Nat.toList_repr]
  have hhead : ∃ first rest, Nat.toDigits 10 node.toNat = first :: rest ∧
    (first != '0' || rest.isEmpty) = true := by
    rcases Nat.eq_zero_or_pos node.toNat with hzero | hpos
    · exact ⟨'0', [], by rw [hzero]; rfl, rfl⟩
    · obtain ⟨first, rest, hsplit, hfirst⟩ := head_toDigits_ne_zero hpos
      exact ⟨first, rest, hsplit, by simp [hfirst]⟩
  obtain ⟨first, rest, hsplit, hfirst⟩ := hhead
  have hall : (first :: rest).all Char.isDigit = true := by
    rw [← hsplit]
    exact all_eq_true.mpr fun digit hdigit => Nat.isDigit_of_mem_toDigits (by omega)
      (by omega) hdigit
  have hnumber :
    (first :: rest).foldl (fun number digit => number * 10 + (digit.toNat - '0'.toNat)) 0 =
      node.toNat := by
    rw [← hsplit]
    simpa only [Nat.ofDigitChars_eq_foldl, Nat.mul_comm] using
      (Nat.ofDigitChars_ten_toDigits : Nat.ofDigitChars 10 (Nat.toDigits 10 node.toNat) 0 =
        node.toNat)
  rw [nodeOfKey?, hdigits, hsplit]
  dsimp only
  rw [hall, hfirst, hnumber, if_pos (by rfl), if_pos node.toNat_lt, UInt32.ofNat_toNat]

theorem insertEntry_of_forall_lt {node : Source.NodeId} {value : α}
    (h : ∀ entry ∈ entries, entry.1 < node) :
    insertEntry node value entries = entries ++ [(node, value)] := by
  induction entries with
  | nil => rfl
  | cons entry rest ih =>
    obtain ⟨hentry, hrest⟩ := forall_mem_cons.mp h
    have hnot : ¬ node < entry.1 := by
      rw [UInt32.lt_iff_toNat_lt] at hentry ⊢
      omega
    have hne : node ≠ entry.1 := by
      rintro rfl
      exact hnot hentry
    rw [insertEntry, if_neg hnot, if_neg hne, ih hrest, cons_append]

/-- Entries in order are taken over one by one. -/
theorem entries_foldl_insert (h : Increasing (map.entries ++ entries)) :
    (entries.foldl (fun map entry => map.insert entry.1 entry.2) map).entries =
      map.entries ++ entries := by
  induction entries generalizing map with
  | nil => exact (append_nil _).symm
  | cons entry rest ih =>
    have hbefore : ∀ earlier ∈ map.entries, earlier.1 < entry.1 :=
      fun earlier hearlier => (pairwise_append.mp h).2.2 earlier hearlier entry mem_cons_self
    have hinsert : (map.insert entry.1 entry.2).entries = map.entries ++ [entry] :=
      insertEntry_of_forall_lt hbefore
    rw [foldl_cons, ih, hinsert, append_assoc, singleton_append]
    rwa [hinsert, append_assoc, singleton_append]

theorem NodeMap.ext {a b : NodeMap α} (h : a.entries = b.entries) : a = b := by
  cases a
  cases b
  cases h
  rfl

theorem NodeMap.ofList_entries (map : NodeMap α) : NodeMap.ofList map.entries = map :=
  NodeMap.ext (entries_foldl_insert map.increasing)

theorem mapM_entries {manner : Manner}
    (h : ∀ entry ∈ entries, Exchanged read (write entry.2) entry.2) :
    (entries.map fun entry => (toString entry.1.toNat, write entry.2)).mapM
      (fun field => do return (← nodeOfKey? field.1, ← read ⟨field.2, manner⟩)) = some entries := by
  induction entries with
  | nil => rfl
  | cons entry rest ih =>
    obtain ⟨hentry, hrest⟩ := forall_mem_cons.mp h
    rw [map_cons, mapM_cons, nodeOfKey?_toString, hentry.reads, ih hrest]
    rfl

theorem NodeMap.exchanged (map : NodeMap α)
    (h : ∀ entry ∈ map.entries, Exchanged read (write entry.2) entry.2) :
    Exchanged (NodeMap.read? read) (map.toJson write) map := by
  refine ⟨?_, nofun, fun manner => ?_⟩
  · rw [NodeMap.toJson, isReadable]
    refine fieldsReadable_of_forall fun field hfield => ?_
    obtain ⟨entry, hentry, rfl⟩ := mem_map.mp hfield
    exact (h entry hentry).readable
  · show (_ >>= fun entries => some (NodeMap.ofList entries)) = some map
    rw [mapM_entries h]
    exact congrArg some map.ofList_entries

/-- All integer constants fit sixty-four bits. -/
def SemanticTable.Fits (table : SemanticTable) : Prop :=
  ∀ entry ∈ table.constants.entries, entry.2.Fits

theorem SemanticTable.exchanged (table : SemanticTable) (h : table.Fits) :
    Exchanged SemanticTable.read? table.toJson table :=
  .record (fun _ => rfl) fun _ =>
    .valueD (table.symbols.exchanged fun entry _ => entry.2.exchanged) <|
    .valueD (table.types.exchanged fun entry _ => entry.2.exchanged) <|
    .valueD (table.constants.exchanged fun entry hentry => entry.2.exchanged (h entry hentry)) <|
    .valueD (table.declared.exchanged fun entry _ => entry.2.exchanged) <|
    .valueD (table.scopes.exchanged fun entry _ => exchanged_map entry.2 fun name _ =>
      exchanged_str name) <|
    .valueD (exchanged_map table.globalImports fun clause _ => clause.exchanged) .done

end Model

/-- All integer constants fit sixty-four bits. -/
def SourceUnit.Fits (unit : SourceUnit) : Prop :=
  unit.semantics.Fits

theorem SourceUnit.exchanged (unit : SourceUnit) (h : unit.Fits) :
    Exchanged SourceUnit.read? unit.toJson unit :=
  .record (fun _ => rfl) fun _ =>
    .value (exchanged_str unit.path) <| .value unit.tree.exchanged <|
    .valueD (unit.semantics.exchanged h) .done

/-! ## What is read fits -/

namespace Json

variable {β : Type} {whole : Given} {P : α → Prop} {Q : β → Prop}

/-- Whatever a reader gives has the property. -/
def Reader.Yields (reader : Reader whole α) (P : α → Prop) : Prop :=
  ∀ row result, reader row = some result → P result.1

namespace Reader.Yields

theorem pure {value : α} (h : P value) : (Pure.pure value : Reader whole α).Yields P := by
  intro row result hresult
  cases hresult
  exact h

theorem trivial (reader : Reader whole α) : reader.Yields fun _ => True :=
  fun _ _ _ => True.intro

theorem bind {first : Reader whole α} {next : α → Reader whole β} (hfirst : first.Yields P)
    (hnext : ∀ value, P value → (next value).Yields Q) : (first >>= next).Yields Q := by
  intro row result hresult
  obtain ⟨step, hstep, hrest⟩ := Option.bind_eq_some_iff.mp hresult
  exact hnext step.1 (hfirst row step hstep) step.2 result hrest

/-- A step whose result does not matter. -/
theorem after (first : Reader whole α) {next : α → Reader whole β}
    (hnext : ∀ value, (next value).Yields Q) :
    (first >>= next).Yields Q :=
  bind (trivial first) fun value _ => hnext value

theorem refuse : (Reader.refuse : Reader whole α).Yields P :=
  fun _ _ hresult => nomatch hresult

variable {name : String}

theorem value (h : ∀ given result, read given = some result → P result) :
    (Reader.value name read : Reader whole α).Yields P := by
  refine after _ fun part => ?_
  cases hread : read part.1 with
  | none => exact refuse
  | some result => exact pure (h _ _ hread)

theorem valueD {fallback : α} (hfallback : P fallback)
    (h : ∀ given result, read given = some result → P result) :
    (Reader.valueD name fallback read : Reader whole α).Yields P := by
  refine after _ fun part? => ?_
  rcases part? with _ | part
  · exact pure hfallback
  · dsimp only
    cases hread : read part.1 with
    | none => exact refuse
    | some result => exact pure (h _ _ hread)

theorem choose {variants : List (String × Reader whole α)}
    (h : ∀ variant ∈ variants, variant.2.Yields P) :
    (Reader.choose name variants).Yields P := by
  refine after _ fun kind => ?_
  cases hlookup : variants.lookup kind with
  | none => exact refuse
  | some reader =>
    obtain ⟨before, rest, rfl, _⟩ := lookup_eq_some_iff.mp hlookup
    exact h (kind, reader) (mem_append_right _ mem_cons_self)

theorem of_readRecord {reader : Reader whole α} {result : α} (h : reader.Yields P)
    (hread : readRecord whole reader = some result) : P result := by
  have hfinish : ∀ row, Row.finish (reader row) = some result → P result := by
    intro row hrow
    rcases hreader : reader row with _ | ⟨found, rest⟩
    · rw [hreader] at hrow
      cases hrow
    · rw [hreader] at hrow
      rcases rest with _ | _ | _
      · exact Option.some.inj hrow ▸ h row _ hreader
      · exact Option.some.inj hrow ▸ h row _ hreader
      · cases hrow
  rw [readRecord] at hread
  split at hread
  · exact hfinish _ hread
  · split at hread
    · exact hfinish _ hread
    · cases hread

end Reader.Yields

end Json

variable {given : Given}

namespace Model

theorem ConstantValue.fits_of_read {value : ConstantValue}
    (h : ConstantValue.read? given = some value) :
    value.Fits := by
  have hinteger : ∀ (given : Given) (number : Int), given.int64? = some number →
      (ConstantValue.integer number).Fits := by
    intro given number hnumber
    rcases given with ⟨json, manner⟩
    cases json with
    | int found =>
      by_cases hrange : -9223372036854775808 ≤ found ∧ found < 9223372036854775808
      · obtain rfl : found = number := by simpa [Given.int64?, Json.int64?, hrange] using hnumber
        exact hrange
      · exact absurd hnumber (by simp [Given.int64?, Json.int64?, hrange])
    | _ => cases hnumber
  refine Reader.Yields.of_readRecord (.choose ?_) h
  simp only [forall_mem_cons, not_mem_nil, false_implies, implies_true, and_true]
  exact ⟨.after _ fun _ => .pure trivial, .after _ fun _ => .pure trivial,
    .bind (.value hinteger) fun _ hnumber => .pure hnumber, .after _ fun _ => .pure trivial,
    .after _ fun _ => .pure trivial, .after _ fun _ => .pure trivial⟩

theorem NodeMap.mem_of_mem_ofList {entry : Source.NodeId × α}
    (h : entry ∈ (entries.foldl (fun map entry => map.insert entry.1 entry.2) map).entries) :
    entry ∈ map.entries ∨ entry ∈ entries := by
  induction entries generalizing map with
  | nil => exact .inl h
  | cons first rest ih =>
    rcases ih h with hmap | hrest
    · rcases mem_insertEntry hmap with rfl | hmap
      · exact .inr mem_cons_self
      · exact .inl hmap
    · exact .inr (mem_cons_of_mem _ hrest)

theorem NodeMap.forall_of_read {P : α → Prop}
    (hread : ∀ given value, read given = some value → P value)
    (h : NodeMap.read? read given = some map) :
    ∀ entry ∈ map.entries, P entry.2 := by
  have hentries : ∀ (fields : List (String × Json)) (entries : List (Source.NodeId × α)),
      fields.mapM (fun field => do return (← nodeOfKey? field.1, ← read ⟨field.2, given.manner⟩)) =
        some entries → ∀ entry ∈ entries, P entry.2 := by
    intro fields
    induction fields with
    | nil =>
      rintro _ ⟨⟩
      exact forall_mem_nil _
    | cons field rest ih =>
      intro entries hentries
      rw [mapM_cons] at hentries
      obtain ⟨_, hfirst, hentries⟩ := Option.bind_eq_some_iff.mp hentries
      obtain ⟨others, hothers, hcons⟩ := Option.bind_eq_some_iff.mp hentries
      obtain ⟨_, _, hfirst⟩ := Option.bind_eq_some_iff.mp hfirst
      obtain ⟨_, hvalue, hpair⟩ := Option.bind_eq_some_iff.mp hfirst
      obtain rfl := Option.some.inj hcons
      obtain rfl := Option.some.inj hpair
      exact forall_mem_cons.mpr ⟨hread _ _ hvalue, ih others hothers⟩
  rcases given with ⟨json, manner⟩
  cases json with
  | obj fields =>
    obtain ⟨entries, hmapM, hmap⟩ := Option.bind_eq_some_iff.mp h
    obtain rfl := Option.some.inj hmap
    intro entry hentry
    rcases mem_of_mem_ofList hentry with hempty | hentry
    · exact nomatch hempty
    · exact hentries fields entries hmapM entry hentry
  | _ => exact nomatch h

theorem SemanticTable.fits_of_read {table : SemanticTable}
    (h : SemanticTable.read? given = some table) :
    table.Fits := by
  refine Reader.Yields.of_readRecord ?_ h
  refine .after _ fun symbols => .after _ fun types =>
    .bind (P := fun constants : NodeMap ConstantValue =>
    ∀ entry ∈ constants.entries, entry.2.Fits) ?_ fun constants hconstants => ?_
  · refine .valueD (fun entry hentry => nomatch hentry) fun given constants hread => ?_
    exact NodeMap.forall_of_read (fun _ _ => ConstantValue.fits_of_read) hread
  · exact .after _ fun declared => .after _ fun scopes => .after _ fun imports => .pure hconstants

end Model

theorem SourceUnit.fits_of_read {unit : SourceUnit} (h : SourceUnit.read? given = some unit) :
    unit.Fits := by
  refine Reader.Yields.of_readRecord ?_ h
  refine .after _ fun path => .after _ fun tree => .bind (P := Model.SemanticTable.Fits) ?_ ?_
  · exact .valueD (fun entry hentry => nomatch hentry) fun given table =>
      Model.SemanticTable.fits_of_read
  · exact fun semantics hsemantics => .pure hsemantics

/-! ## All that is exchanged -/

/-- Reading, in any manner, undoes writing for every value that `fits`; and what was read once, from
whatever was given, is the same when it is written and read again. -/
structure Exchange (read : Given → Option α) (write : α → Json) (fits : α → Prop) : Prop where
  undoes : ∀ value, fits value → ∀ manner, read ⟨write value, manner⟩ = some value
  rereads : ∀ given value, read given = some value → ∀ manner,
    read ⟨write value, manner⟩ = read given

theorem Exchange.of_fits {fits : α → Prop}
    (h : ∀ value, fits value → Exchanged read (write value) value)
    (hread : ∀ {given value}, read given = some value → fits value) : Exchange read write fits where
  undoes value hvalue := (h value hvalue).reads
  rereads given value hgiven manner := by
    rw [(h value (hread hgiven)).reads, hgiven]

theorem Exchange.of_all (h : ∀ value, Exchanged read (write value) value) :
    Exchange read write fun _ => True :=
  .of_fits (fun value _ => h value) fun _ => trivial

open Source Model

/-- Reading undoes writing for everything that is exchanged. Only integer constants are restricted:
in a constant, in a table of answers and in a unit they are held in sixty-four bits. -/
theorem reading_undoes_writing :
    Exchange SourceUnit.read? SourceUnit.toJson SourceUnit.Fits ∧
    Exchange CompilationUnit.read? CompilationUnit.toJson (fun _ => True) ∧
    Exchange Declaration.read? Declaration.toJson (fun _ => True) ∧
    Exchange Statement.read? Statement.toJson (fun _ => True) ∧
    Exchange Expr.read? Expr.toJson (fun _ => True) ∧
    Exchange TypeSyntax.read? TypeSyntax.toJson (fun _ => True) ∧
    Exchange Name.read? Name.toJson (fun _ => True) ∧
    Exchange Argument.read? Argument.toJson (fun _ => True) ∧
    Exchange Parameter.read? Parameter.toJson (fun _ => True) ∧
    Exchange Declarator.read? Declarator.toJson (fun _ => True) ∧
    Exchange ImportsClause.read? ImportsClause.toJson (fun _ => True) ∧
    Exchange Literal.read? Literal.toJson (fun _ => True) ∧
    Exchange Trivia.read? Trivia.toJson (fun _ => True) ∧
    Exchange SemanticTable.read? SemanticTable.toJson SemanticTable.Fits ∧
    Exchange SymbolInfo.read? SymbolInfo.toJson (fun _ => True) ∧
    Exchange TypeInfo.read? TypeInfo.toJson (fun _ => True) ∧
    Exchange Symbol.read? Symbol.toJson (fun _ => True) ∧
    Exchange TypeSymbol.read? TypeSymbol.toJson (fun _ => True) ∧
    Exchange ConstantValue.read? ConstantValue.toJson ConstantValue.Fits :=
  ⟨.of_fits SourceUnit.exchanged SourceUnit.fits_of_read, .of_all CompilationUnit.exchanged,
    .of_all Declaration.exchanged, .of_all Statement.exchanged, .of_all Expr.exchanged,
    .of_all TypeSyntax.exchanged, .of_all Name.exchanged, .of_all Argument.exchanged,
    .of_all Parameter.exchanged, .of_all Declarator.exchanged, .of_all ImportsClause.exchanged,
    .of_all Literal.exchanged, .of_all Trivia.exchanged,
    .of_fits SemanticTable.exchanged SemanticTable.fits_of_read, .of_all SymbolInfo.exchanged,
    .of_all TypeInfo.exchanged, .of_all Symbol.exchanged, .of_all TypeSymbol.exchanged,
    .of_fits ConstantValue.exchanged ConstantValue.fits_of_read⟩

end Sharpen

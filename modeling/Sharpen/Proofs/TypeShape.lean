import Sharpen.Proofs.Printing.Grammar
import Sharpen.Proofs.TargetParts
import Sharpen.Proofs.TypeFormation
import Sharpen.Target.Print.Declarations

/-!
# The shape of converted types

Arrays and nullable marks can be nested in the source as one likes. In the target they are gathered:
ranks are pushed outward into one array type, and marks inward to its element. So a converted type
is told by three things that are read off the source on the way to the innermost type: the ranks
that are met, from the outside in, the number of marks, and the innermost type itself
(`types_keep_their_shape`).
-/

namespace Sharpen

open Except (ok)
open List

/-! ## Reading a type from the outside in -/

namespace Source.TypeSyntax

/-- The type inside all arrays and nullable marks. -/
def innermost : TypeSyntax → TypeSyntax
  | .array _ element _ => element.innermost
  | .nullable _ element => element.innermost
  | other => other

/-- The dimensions of all rank specifiers on the way to the innermost type. -/
def ranksInward : TypeSyntax → List UInt32
  | .array _ element ranks => ranks ++ element.ranksInward
  | .nullable _ element => element.ranksInward
  | _ => []

/-- The number of nullable marks on the way to the innermost type. -/
def marksInward : TypeSyntax → Nat
  | .array _ element _ => element.marksInward
  | .nullable _ element => element.marksInward + 1
  | _ => 0

end Source.TypeSyntax

namespace Target

namespace TypeSyntax

def isArray : TypeSyntax → Bool
  | .array .. => true
  | _ => false

/-- A type that is marked as nullable a number of times. -/
def marked (base : TypeSyntax) : Nat → TypeSyntax
  | 0 => base
  | marks + 1 => .nullable (base.marked marks)

/-- The array with these ranks, or just the element if there are none. -/
def ranked (element : TypeSyntax) (ranks : List (List (Option Expr))) : TypeSyntax :=
  if ranks = [] then element else .array element ranks

variable {base element : TypeSyntax}

theorem isArray_marked (hbase : base.isArray = false) (marks : Nat) :
    (base.marked marks).isArray = false := by
  cases marks with
  | zero => exact hbase
  | succ marks => rfl

theorem nullableOf_of_not_isArray {type : TypeSyntax} (h : type.isArray = false) :
    type.nullableOf = .nullable type := by
  cases type with
  | array => cases h
  | predefined | named | nullable | var => rfl

theorem withOuterRanks_of_not_isArray {type : TypeSyntax} (h : type.isArray = false)
    (ranks : List (List (Option Expr))) : type.withOuterRanks ranks = type.ranked ranks := by
  cases type with
  | array => cases h
  | predefined | named | nullable | var => simp [withOuterRanks, ranked]

/-- Marks are pushed inward. -/
theorem nullableOf_ranked (helement : element.isArray = false) (ranks : List (List (Option Expr))) :
    (element.ranked ranks).nullableOf = (nullable element).ranked ranks := by
  by_cases hranks : ranks = []
  · rw [ranked, if_pos hranks, ranked, if_pos hranks, nullableOf_of_not_isArray helement]
  · rw [ranked, if_neg hranks, ranked, if_neg hranks, nullableOf]

/-- Ranks are pushed outward. -/
theorem withOuterRanks_ranked (helement : element.isArray = false)
    (outer inner : List (List (Option Expr))) :
    (element.ranked inner).withOuterRanks outer = element.ranked (outer ++ inner) := by
  by_cases hinner : inner = []
  · rw [hinner, append_nil, ranked, if_pos rfl, withOuterRanks_of_not_isArray helement]
  · have hranks : outer ++ inner ≠ [] := append_ne_nil_of_right_ne_nil outer hinner
    rw [ranked, if_neg hinner, ranked, if_neg hranks, withOuterRanks]
    cases outer with
    | nil => rfl
    | cons first rest => rfl

end TypeSyntax

end Target

/-! ## The innermost type, marked and ranked -/

theorem Source.PredefinedType.isArray_convert (keyword : Source.PredefinedType) :
    keyword.convert.isArray = false := by
  cases keyword <;> rfl

/-- A converted type is its innermost type, marked and ranked. -/
theorem Source.TypeSyntax.convert_eq_ranked {converted : Target.TypeSyntax}
    (type : Source.TypeSyntax) (h : type.convert = .ok converted) :
    ∃ base, type.innermost.convert = .ok base ∧ base.isArray = false ∧
      converted = (base.marked type.marksInward).ranked (unsizedRanks type.ranksInward) := by
  cases type with
  | predefined _ keyword =>
    obtain rfl := ok.inj h
    exact ⟨_, rfl, keyword.isArray_convert, rfl⟩
  | named =>
    have hbase := h
    unfold Source.TypeSyntax.convert at h
    split at h
    · obtain rfl := ok.inj h
      exact ⟨_, hbase, rfl, rfl⟩
    · cases h
  | array _ element =>
    unfold Source.TypeSyntax.convert at h
    split at h
    · next hinner =>
      obtain rfl := ok.inj h
      obtain ⟨base, hbase, harray, rfl⟩ := element.convert_eq_ranked hinner
      refine ⟨base, hbase, harray, ?_⟩
      rw [Target.TypeSyntax.withOuterRanks_ranked (Target.TypeSyntax.isArray_marked harray _),
        ranksInward, unsizedRanks, unsizedRanks, unsizedRanks, ← map_append]
      rfl
    · cases h
  | nullable _ element =>
    unfold Source.TypeSyntax.convert at h
    split at h
    · next hinner =>
      obtain rfl := ok.inj h
      obtain ⟨base, hbase, harray, rfl⟩ := element.convert_eq_ranked hinner
      refine ⟨base, hbase, harray, ?_⟩
      rw [Target.TypeSyntax.nullableOf_ranked (Target.TypeSyntax.isArray_marked harray _)]
      rfl
    · cases h

/-! ## The text of a type -/

namespace Target

/-- The text of a rank specifier without sizes. -/
def brackets (dimensions : UInt32) : String :=
  "[" ++ String.ofList (replicate (max dimensions.toNat 1 - 1) ',') ++ "]"

theorem optionLayouts_none (level count : Nat) :
    optionLayouts level (replicate count none) = replicate count none := by
  induction count with
  | zero => rfl
  | succ count ih => rw [replicate_succ, optionLayouts, ih, replicate_succ]

theorem render_commas (width count : Nat) :
    Layout.render width (replicate count (.text ",")) = String.ofList (replicate count ',') := by
  induction count with
  | zero => rfl
  | succ count ih =>
    rw [replicate_succ, Layout.render_cons, ih, replicate_succ, String.ofList_cons]
    rfl

theorem render_unsizedRanks (level width : Nat) (ranks : List UInt32) :
    (rankLayouts level (unsizedRanks ranks)).render width = String.join (ranks.map brackets) := by
  induction ranks with
  | nil => rfl
  | cons rank rest ih =>
    obtain ⟨commas, hcommas⟩ : ∃ commas, max rank.toNat 1 = commas + 1 :=
      ⟨max rank.toNat 1 - 1, by omega⟩
    have hsizes : sizesLayout (optionLayouts level (TypeSyntax.unsizedRank rank.toNat)) =
        replicate commas (.text ",") := by
      rw [TypeSyntax.unsizedRank, optionLayouts_none, hcommas, replicate_succ, sizesLayout,
        Option.getD_none, nil_append, flatMap_replicate]
      simp
    rw [map_cons, String.join_cons, ← ih, brackets, hcommas]
    change Layout.render width (rankLayouts level (TypeSyntax.unsizedRank rank.toNat ::
      unsizedRanks rest)) = _
    rw [rankLayouts, hsizes, Layout.render_append, Layout.enclosed, cons_append, Layout.render_cons,
      Layout.render_append, render_commas]
    simp only [Nat.add_sub_cancel, ← String.append_assoc]
    rfl

theorem TypeSyntax.render_marked (base : TypeSyntax) (marks level width : Nat) :
    ((base.marked marks).layout level).render width =
      (base.layout level).render width ++ String.ofList (replicate marks '?') := by
  induction marks with
  | zero => exact String.append_empty.symm
  | succ marks ih =>
    rw [marked, layout, Layout.render_append, ih, replicate_succ', String.ofList_append,
      ← String.append_assoc]
    rfl

theorem TypeSyntax.render_ranked (element : TypeSyntax) (ranks : List UInt32) (level width : Nat) :
    ((element.ranked (unsizedRanks ranks)).layout level).render width =
      (element.layout level).render width ++ String.join (ranks.map brackets) := by
  rw [ranked]
  split
  · next hranks =>
    rw [map_eq_nil_iff.mp hranks]
    exact String.append_empty.symm
  · rw [layout, Layout.render_append, render_unsizedRanks]

/-! ## No arrays of arrays -/

/-- Neither the element of an array nor what is marked as nullable is itself an array. -/
def Node.IsFlat : Node → Prop
  | .type (.array element _) => element.isArray = false
  | .type (.nullable element) => element.isArray = false
  | _ => True

/-- The nodes of the sizes of an array creation. -/
def sizeNodes (ranks : List (List (Option Expr))) : List Node :=
  ranks.flatten.flatMap fun size => size.toList.map .expr

theorem flat_array_iff {element : TypeSyntax} {ranks : List (List (Option Expr))} :
    (Node.type (.array element ranks)).Everywhere Node.IsFlat ↔ element.isArray = false ∧
      (Node.type element).Everywhere Node.IsFlat ∧ ∀ part ∈ sizeNodes ranks,
        part.Everywhere Node.IsFlat := by
  constructor
  · rintro ⟨hflat, hparts⟩
    exact ⟨hflat, forall_mem_cons.mp hparts⟩
  · rintro ⟨hflat, hparts⟩
    exact ⟨hflat, forall_mem_cons.mpr hparts⟩

theorem sizeNodes_unsizedRanks (ranks : List UInt32) : sizeNodes (unsizedRanks ranks) = [] := by
  refine flatMap_eq_nil_iff.mpr fun size hsize => ?_
  obtain ⟨_, hrank, hsize⟩ := mem_flatten.mp hsize
  obtain ⟨_, -, rfl⟩ := mem_map.mp hrank
  rw [eq_of_mem_replicate hsize]
  rfl

theorem flat_nullableOf {type : TypeSyntax} (h : (Node.type type).Everywhere Node.IsFlat) :
    (Node.type type.nullableOf).Everywhere Node.IsFlat := by
  cases type with
  | array =>
    obtain ⟨hflat, helement, hsizes⟩ := flat_array_iff.mp h
    exact flat_array_iff.mpr ⟨rfl, .intro hflat (forall_mem_singleton.mpr helement), hsizes⟩
  | predefined | named | nullable | var => exact .intro rfl (forall_mem_singleton.mpr h)

theorem flat_withOuterRanks {type : TypeSyntax} (ranks : List UInt32)
    (h : (Node.type type).Everywhere Node.IsFlat) :
    (Node.type (type.withOuterRanks (unsizedRanks ranks))).Everywhere Node.IsFlat := by
  have hnone : ∀ part ∈ sizeNodes (unsizedRanks ranks), part.Everywhere Node.IsFlat := by
    rw [sizeNodes_unsizedRanks]
    exact forall_mem_nil _
  unfold TypeSyntax.withOuterRanks
  split
  · exact h
  cases type with
  | array =>
    obtain ⟨hflat, helement, hsizes⟩ := flat_array_iff.mp h
    refine flat_array_iff.mpr ⟨hflat, helement, ?_⟩
    rw [sizeNodes, flatten_append, flatMap_append]
    exact forall_mem_append.mpr ⟨hnone, hsizes⟩
  | predefined | named | nullable | var => exact flat_array_iff.mpr ⟨rfl, h, hnone⟩

/-- Conversion keeps types flat, also those inside of names. -/
theorem flat_formation : TypeFormation (fun name => (Node.name name).Everywhere Node.IsFlat)
    fun type => (Node.type type).Everywhere Node.IsFlat where
  identifier _ := .intro trivial (forall_mem_nil _)
  generic h := .intro trivial (forall_mem_map.mpr h)
  qualified hleft hright := .intro trivial (by simp [Node.parts, Name.parts, hleft, hright])
  aliasQualified h := .intro trivial (forall_mem_singleton.mpr h)
  predefined _ := .intro trivial (forall_mem_nil _)
  named h := .intro trivial (forall_mem_singleton.mpr h)
  nullableOf h := flat_nullableOf h
  withOuterRanks ranks h := flat_withOuterRanks ranks h

end Target

/-- **Types keep their shape**: a converted type is the converted innermost type with all the marks
on it, inside one array with all the ranks from the outside in, if there are any. Nowhere in it,
type arguments included, is there an array of arrays or a nullable array, and it is written as the
innermost type, then a question mark for each mark, then a pair of brackets for each rank. -/
theorem types_keep_their_shape (type : Source.TypeSyntax) (converted : Target.TypeSyntax)
    (h : type.convert = .ok converted) :
    ∃ base, type.innermost.convert = .ok base ∧ converted =
      (if type.ranksInward = [] then base.marked type.marksInward
        else .array (base.marked type.marksInward)
          (type.ranksInward.map fun rank => replicate (max rank.toNat 1) none)) ∧
      (Target.Node.type converted).Everywhere Target.Node.IsFlat ∧
      ∀ level width, (converted.layout level).render width =
        (base.layout level).render width ++ String.ofList (replicate type.marksInward '?') ++
          String.join (type.ranksInward.map fun rank =>
            "[" ++ String.ofList (replicate (max rank.toNat 1 - 1) ',') ++ "]") := by
  obtain ⟨base, hbase, -, rfl⟩ := type.convert_eq_ranked h
  refine ⟨base, hbase, ?_, Target.flat_formation.type type h, fun level width => ?_⟩
  · rw [Target.TypeSyntax.ranked]
    simp only [unsizedRanks, map_eq_nil_iff, Target.TypeSyntax.unsizedRank]
  · rw [Target.TypeSyntax.render_ranked, Target.TypeSyntax.render_marked]
    rfl

/-- An array of nullable arrays of arrays of nullable integers: three ranks, of which one is left
open, and two marks. -/
theorem shape_of_a_jagged_array :
    let type : Source.TypeSyntax :=
      .array 1 (.nullable 2 (.array 3 (.nullable 4 (.predefined 5 .integer)) [0, 2])) [1]
    let converted : Target.TypeSyntax :=
      .array (.nullable (.nullable (.predefined .int))) [[none], [none], [none, none]]
    type.convert = .ok converted ∧ converted.text = "int??[][][,]" ∧
      (Target.Node.type converted).Everywhere Target.Node.IsFlat := by
  intro type converted
  have hconvert : type.convert = .ok converted := by rfl
  obtain ⟨base, hbase, -, hflat, htext⟩ := types_keep_their_shape type converted hconvert
  obtain rfl : Target.TypeSyntax.predefined .int = base := ok.inj hbase
  exact ⟨hconvert, (htext 0 defaultIndentWidth).trans (by decide), hflat⟩

end Sharpen

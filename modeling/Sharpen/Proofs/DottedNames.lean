import Sharpen.Convert.Type
import Sharpen.Proofs.Printing.Grammar
import Sharpen.Source.Build
import Sharpen.Target.Print.Declarations

/-!
# Dotted names

A name that is given as a text is cut at its dots, put together from the left, converted part by
part and printed with dots between the parts. The root namespace at its start becomes an alias in
the target. The main result is `dotted_names_keep_their_parts`.
-/

namespace Sharpen

open List

open Source (NodeId Build)
open Target (Name Expr)

/-! ## Parts -/

namespace Text

theorem splitAt_eq_splitOn (sep : Char) (cs : List Char) : splitAt sep cs = cs.splitOn sep := by
  induction cs with
  | nil => rfl
  | cons c cs ih =>
    obtain ⟨_, _, hpieces⟩ := exists_cons_of_ne_nil (splitOn_ne_nil sep cs)
    rw [splitAt, splitOn_cons_eq_if_modifyHead, ih, hpieces, modifyHead_cons]
    simp only [beq_iff_eq]

theorem dottedParts_ne_nil (path : String) : dottedParts path ≠ [] := by
  rw [dottedParts, splitAt_eq_splitOn]
  exact mt map_eq_nil_iff.mp (splitOn_ne_nil _ _)

theorem intercalate_dottedParts (path : String) : ".".intercalate (dottedParts path) = path := by
  rw [← String.toList_inj, String.toList_intercalate, dottedParts, splitAt_eq_splitOn, map_map]
  have hparts : String.toList ∘ String.ofList = id := funext fun cs => String.toList_ofList
  rw [hparts, map_id]
  exact intercalate_splitOn '.'

theorem dottedParts_intercalate {parts : List String} (hne : parts ≠ [])
    (hparts : ∀ part ∈ parts, '.' ∉ part.toList) :
    dottedParts (".".intercalate parts) = parts := by
  have hsplit : (List.intercalate ['.'] (parts.map String.toList)).splitOn '.' =
    parts.map String.toList := by
    refine splitOn_intercalate '.' ?_ (mt map_eq_nil_iff.mp hne)
    exact forall_mem_map.mpr hparts
  have hlists : String.ofList ∘ String.toList = id := funext fun part => String.ofList_toList
  rw [dottedParts, splitAt_eq_splitOn, String.toList_intercalate]
  change ((List.intercalate ['.'] _).splitOn '.').map _ = _
  rw [hsplit, map_map, hlists, map_id]

end Text

/-! ## Printed chains -/

/-- A chain to which a part is added behind a dot, over and over. -/
theorem text_foldl {α : Type} {text : α → String} {P : α → Prop} {add : α → String → α}
    (hadd : ∀ chain part, P chain → P (add chain part) ∧ text (add chain part) =
      text chain ++ "." ++ part)
    (parts : List String) {chain : α} (h : P chain) :
    text (parts.foldl add chain) = ".".intercalate (text chain :: parts) := by
  induction parts generalizing chain with
  | nil => exact String.intercalate_singleton.symm
  | cons part rest ih =>
    obtain ⟨hkept, htext⟩ := hadd chain part h
    rw [foldl_cons, ih hkept, htext, String.intercalate_cons_append, String.intercalate_cons_cons]

theorem Layout.render_write (text : String) (width : Nat) : (write text).render width = text := by
  rw [write, render_cons]
  exact String.append_empty

/-- A part behind a dot. -/
theorem Layout.render_dot (before : Layout) (part : String) (width : Nat) :
    (before ++ .text "." :: write part).render width = before.render width ++ "." ++ part := by
  rw [render_append, render_cons, render_write, String.append_assoc]
  rfl

namespace Target

namespace Name

theorem text_identifier (part : String) : (identifier part).text = part :=
  Layout.render_write part _

theorem text_qualified (left : Name) (part : String) :
    (qualified left (.identifier part)).text = left.text ++ "." ++ part :=
  Layout.render_dot _ part _

theorem text_dotted (path : String) : (dotted path).text = path := by
  obtain ⟨first, rest, hparts⟩ := exists_cons_of_ne_nil (Text.dottedParts_ne_nil path)
  have hchain :
    (rest.foldl (fun name part => .qualified name (.identifier part)) (identifier first)).text =
      ".".intercalate ((identifier first).text :: rest) :=
    text_foldl (P := fun _ => True) (fun left part _ =>
      ⟨trivial, text_qualified left part⟩) rest trivial
  rw [dotted, hparts]
  dsimp only
  rw [hchain, text_identifier, ← hparts, Text.intercalate_dottedParts]

end Name

namespace Expr

theorem text_member {receiver : Expr} (width : Nat) (h : receiver.strength = Strength.primary)
    (name : String) :
    (receiver.member name).text width = receiver.text width ++ "." ++ name := by
  have hoperand : operand Strength.primary receiver (receiver.layout 0) = receiver.layout 0 :=
    if_neg (h ▸ Nat.lt_irrefl _)
  rw [text, member, layout, hoperand]
  exact Layout.render_dot _ name width

theorem text_dotted (path : String) (width : Nat) : (dotted path).text width = path := by
  obtain ⟨first, rest, hparts⟩ := exists_cons_of_ne_nil (Text.dottedParts_ne_nil path)
  have hchain : (rest.foldl member (identifier first)).text width =
      ".".intercalate ((identifier first).text width :: rest) :=
    text_foldl (P := fun chain => chain.strength = Strength.primary)
      (fun _ part h => ⟨rfl, text_member width h part⟩) rest rfl
  have hfirst : (identifier first).text width = first := Layout.render_write first width
  rw [dotted, hparts]
  dsimp only
  rw [hchain, hfirst, ← hparts, Text.intercalate_dottedParts]

end Expr

end Target

/-! ## Converted names -/

namespace Source

open Except (ok)

theorem SimpleName.convert_plain (id : NodeId) (part : String) :
    (SimpleName.mk id part []).convert = ok (.identifier (convertIdentifier part)) := by
  rw [SimpleName.convert]
  rfl

theorem Name.convert_part {left : Name} {qualifier : Target.Name} (h : left.convert = ok qualifier)
    (id number : NodeId) (part : String) : (Name.qualified id left ⟨number, part, []⟩).convert =
      ok (.qualified qualifier (.identifier (convertIdentifier part))) := by
  have hleft : ∀ id, left ≠ .global id := by
    rintro _ rfl
    rw [Name.convert] at h
    cases h
  rw [Name.convert.eq_3 _ _ _ hleft, SimpleName.convert_plain, h]

/-- Further parts stand behind dots, converted. -/
theorem convert_nameFrom (parts : List String) {left : Name} {qualifier : Target.Name}
    (h : left.convert = ok qualifier) (next : NodeId) :
    ∃ converted, (Build.nameFrom left parts next).1.convert = ok converted ∧
      converted.text = ".".intercalate (qualifier.text :: parts.map convertIdentifier) := by
  induction parts generalizing left qualifier next with
  | nil => exact ⟨qualifier, h, String.intercalate_singleton.symm⟩
  | cons part rest ih =>
    obtain ⟨converted, hconvert, htext⟩ :=
      ih (Name.convert_part h next (next + 1) part) (next + 1 + 1)
    refine ⟨converted, hconvert, ?_⟩
    rw [htext, Target.Name.text_qualified, String.intercalate_cons_append, map_cons,
      String.intercalate_cons_cons]

theorem Build.nameStart_eq (part : String) (next : NodeId) :
    Build.nameStart part next = (if part = "Global" then .global next else .simple ⟨next, part, []⟩,
      next + 1) := by
  unfold nameStart
  split <;> rfl

theorem Build.name_eq {path first : String} {rest : List String}
    (h : Text.dottedParts path = first :: rest) (next : NodeId) : Build.name path next =
      Build.nameFrom (if first = "Global" then .global next else .simple ⟨next, first, []⟩) rest
        (next + 1) := by
  rw [name, h]
  change nameFrom (nameStart first next).1 rest (nameStart first next).2 = _
  rw [nameStart_eq]

end Source

/-- The text in the target of a name with these parts, if there is one: `Global` is the root
namespace, which only qualifies other names. -/
def spelledInTarget (first : String) (rest : List String) : Option String :=
  if first = "Global" then
    if rest = [] then none else some ("global::" ++ ".".intercalate (rest.map convertIdentifier))
  else some (".".intercalate ((first :: rest).map convertIdentifier))

/-- A dotted name has the same parts in the target as in the text from which it is built, each of
them converted. If the first one is `Global` it becomes an alias, and only `Global` alone cannot be
converted. A name or a chain of accesses of the target that is built from a text is printed as that
text. -/
theorem dotted_names_keep_their_parts :
    (∀ (first : String) (rest : List String), (∀ part ∈ first :: rest, '.' ∉ part.toList) →
      ∀ next : NodeId,
      (Build.name (".".intercalate (first :: rest)) next).1.convert.toOption.map Name.text =
        spelledInTarget first rest) ∧
    ∀ path : String, (Name.dotted path).text = path ∧ ∀ width,
      (Expr.dotted path).text width = path := by
  refine ⟨fun first rest hparts next => ?_, fun path =>
    ⟨Name.text_dotted path, Expr.text_dotted path⟩⟩
  rw [Build.name_eq (Text.dottedParts_intercalate (cons_ne_nil _ _) hparts), spelledInTarget]
  split
  · -- the root namespace has no name of its own, so the first name is that of the second part
    cases rest with
    | nil => rfl
    | cons part rest =>
      have halias :
        (Source.Name.qualified (next + 1) (.global next) ⟨next + 1 + 1, part, []⟩).convert =
          .ok (.aliasQualified "global" (.identifier (convertIdentifier part))) := by
        rw [Source.Name.convert, Source.SimpleName.convert_plain]
      obtain ⟨_, hconvert, htext⟩ := Source.convert_nameFrom rest halias (next + 1 + 1 + 1)
      have hprint : (Name.aliasQualified "global" (.identifier (convertIdentifier part))).text =
          "global::" ++ convertIdentifier part := by
        rfl
      rw [hprint, String.intercalate_cons_append] at htext
      change (Source.Name.convert (Build.nameFrom _ rest _).1).toOption.map Name.text = _
      rw [hconvert]
      exact congrArg some htext
  · have hfirst : (Source.Name.simple ⟨next, first, []⟩).convert =
      .ok (.identifier (convertIdentifier first)) := by
      rw [Source.Name.convert, Source.SimpleName.convert_plain]
    obtain ⟨_, hconvert, htext⟩ := Source.convert_nameFrom rest hfirst (next + 1)
    rw [Name.text_identifier] at htext
    rw [hconvert]
    exact congrArg some htext

/-- A keyword of the target below the root namespace. -/
theorem keyword_below_the_root :
    (∀ part ∈ ["Global", "System", "[lock]"], '.' ∉ part.toList) ∧
      (Build.name "Global.System.[lock]" 1).1.convert.toOption.map Name.text =
        some "global::System.@lock" := by
  have hparts : ∀ part ∈ ["Global", "System", "[lock]"], '.' ∉ part.toList := by decide
  exact ⟨hparts, dotted_names_keep_their_parts.1 "Global" ["System", "[lock]"] hparts 1⟩

end Sharpen

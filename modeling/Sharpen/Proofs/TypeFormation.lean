import Sharpen.Convert.Type

/-!
# How converted types are put together

Conversion makes names and types in few ways: out of identifiers and keywords, by qualifying, with
type arguments, and by marks and rank specifiers that are merged with those which are already there.
A property that all of these keep (`TypeFormation`) holds of every name and type that conversion
gives, inside type arguments as well.
-/

namespace Sharpen

open Except (ok)
open Target (Name TypeSyntax)

/-- A property of names and one of types that are kept where conversion puts names and types
together. -/
structure TypeFormation (N : Name → Prop) (T : TypeSyntax → Prop) : Prop where
  identifier (text : String) : N (.identifier text)
  generic {text : String} {arguments : List TypeSyntax} (h : ∀ argument ∈ arguments, T argument) :
    N (.generic text arguments)
  qualified {left right : Name} (hleft : N left) (hright : N right) : N (.qualified left right)
  aliasQualified {shortName : String} {name : Name} (h : N name) :
    N (.aliasQualified shortName name)
  predefined (keyword : Target.PredefinedType) : T (.predefined keyword)
  named {name : Name} (h : N name) : T (.named name)
  nullableOf {type : TypeSyntax} (h : T type) : T type.nullableOf
  withOuterRanks {type : TypeSyntax} (ranks : List UInt32) (h : T type) :
    T (type.withOuterRanks (unsizedRanks ranks))

namespace TypeFormation

variable {N : Name → Prop} {T : TypeSyntax → Prop}

theorem dottedName (formation : TypeFormation N T) (path : String) : N (.dotted path) := by
  unfold Name.dotted
  split
  · exact formation.identifier _
  · next first rest heq =>
    clear heq
    suffices ∀ name, N name →
      N (rest.foldl (fun name part => .qualified name (.identifier part)) name) from
      this _ (formation.identifier first)
    induction rest with
    | nil => exact fun name hname => hname
    | cons part rest ih =>
      exact fun name hname => ih _ (formation.qualified hname (formation.identifier part))

theorem dotted (formation : TypeFormation N T) (path : String) : T (.dotted path) :=
  formation.named (formation.dottedName path)

/-- A type of the semantic model, whose arrays are not merged. -/
theorem written (formation : TypeFormation N T)
    (harray : ∀ element, T element → T (.arrayOf element)) :
    (type : Model.TypeSymbol) → T type.written
  | ⟨_, _, _, _, _, _, _⟩ => by
    unfold Model.TypeSymbol.written
    split
    · split
      · exact formation.predefined _
      · exact formation.dotted _
    · exact harray _ (formation.written harray _)
    · exact formation.named (formation.identifier _)

theorem keyword (formation : TypeFormation N T) (type : Source.PredefinedType) :
    T type.convert := by
  unfold Source.PredefinedType.convert
  split
  · exact formation.predefined _
  · exact formation.dotted _

mutual

theorem simpleName (formation : TypeFormation N T) {converted : Name} :
    (name : Source.SimpleName) → name.convert = .ok converted → N converted
  | ⟨_, _, typeArguments⟩, h => by
    unfold Source.SimpleName.convert at h
    split at h
    · obtain rfl := ok.inj h
      exact formation.identifier _
    · split at h
      · next harguments =>
        obtain rfl := ok.inj h
        exact formation.generic (formation.types typeArguments harguments)
      · cases h

theorem name (formation : TypeFormation N T) {converted : Name} :
    (name : Source.Name) → name.convert = .ok converted → N converted
  | .simple name, h => formation.simpleName name h
  | .qualified _ left right, h => by
    unfold Source.Name.convert at h
    split at h
    · next heq => cases heq
    · next heq =>
      obtain ⟨-, rfl, rfl⟩ := heq
      split at h
      · next hmember =>
        obtain rfl := ok.inj h
        exact formation.aliasQualified (formation.simpleName right hmember)
      · cases h
    · next heq =>
      obtain ⟨-, rfl, rfl⟩ := heq
      split at h
      · cases h
      · next hmember =>
        split at h
        · next hqualifier =>
          obtain rfl := ok.inj h
          exact formation.qualified (formation.name left hqualifier)
            (formation.simpleName right hmember)
        · cases h
    · next heq => cases heq
  | .global _, h => nomatch h

theorem type (formation : TypeFormation N T) {converted : TypeSyntax} :
    (type : Source.TypeSyntax) → type.convert = .ok converted → T converted
  | .predefined _ keyword, h => by
    obtain rfl := ok.inj h
    exact formation.keyword keyword
  | .named written, h => by
    unfold Source.TypeSyntax.convert at h
    split at h
    · next hconverted =>
      obtain rfl := ok.inj h
      exact formation.named (formation.name written hconverted)
    · cases h
  | .array _ element ranks, h => by
    unfold Source.TypeSyntax.convert at h
    split at h
    · next hconverted =>
      obtain rfl := ok.inj h
      exact formation.withOuterRanks ranks (formation.type element hconverted)
    · cases h
  | .nullable _ element, h => by
    unfold Source.TypeSyntax.convert at h
    split at h
    · next hconverted =>
      obtain rfl := ok.inj h
      exact formation.nullableOf (formation.type element hconverted)
    · cases h

theorem types (formation : TypeFormation N T) {converted : List TypeSyntax} :
    (types : List Source.TypeSyntax) → convertTypes types = .ok converted →
      ∀ type ∈ converted, T type
  | [], h => by
    obtain rfl := ok.inj h
    exact List.forall_mem_nil _
  | first :: rest, h => by
    unfold convertTypes at h
    split at h
    · cases h
    · next hconverted =>
      split at h
      · next hothers =>
        obtain rfl := ok.inj h
        exact List.forall_mem_cons.mpr ⟨formation.type first hconverted,
          formation.types rest hothers⟩
      · cases h

end

end TypeFormation

end Sharpen

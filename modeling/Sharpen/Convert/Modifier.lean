import Sharpen.Convert.Monad
import Sharpen.Target.Token

/-!
# Modifiers

What becomes of a modifier depends on where it stands: the same `Public` is kept on a member of a
class, left out on a member of an interface and added to a member of a module that has no
visibility.
-/

namespace Sharpen

/-- Where a list of modifiers stands. -/
inductive ModifierSite where
  /-- on a class, structure, enumeration or delegate -/
  | global
  | interfaceOrModule
  /-- on a member outside any type block -/
  | member
  | memberInClass
  | memberInInterface
  | memberInModule
  | memberInStruct
  /-- on fields and constants -/
  | variableOrConst
  /-- on local declarations, parameters and accessors -/
  | local
  deriving DecidableEq, Inhabited

instance : Vocabulary ModifierSite where
  all := [.global, .interfaceOrModule, .member, .memberInClass, .memberInInterface,
    .memberInModule, .memberInStruct, .variableOrConst, .local]
  spelling
    | .global => "Global"
    | .interfaceOrModule => "InterfaceOrModule"
    | .member => "Member"
    | .memberInClass => "MemberInClass"
    | .memberInInterface => "MemberInInterface"
    | .memberInModule => "MemberInModule"
    | .memberInStruct => "MemberInStruct"
    | .variableOrConst => "VariableOrConst"
    | .local => "Local"

namespace ModifierSite

/-- Where the members of a type block stand. -/
def ofContainer : Source.TypeBlockKind → ModifierSite
  | .class => .memberInClass
  | .module => .memberInModule
  | .interface => .memberInInterface
  | .structure => .memberInStruct

/-- Members are public in the source unless they say otherwise, and private in the target: there the
visibility has to be written. -/
def defaultsToPublic : ModifierSite → Bool
  | .member | .memberInClass | .memberInModule | .memberInStruct => true
  | _ => false

end ModifierSite

/-- The modifier of the target, or `none` for one that is left out without a change of meaning. -/
def Source.Modifier.convert (site : ModifierSite) :
    Source.Modifier → Except ConversionError (Option Target.Modifier)
  | .public => .ok (some .public)
  | .private => .ok (some .private)
  | .protected => .ok (some .protected)
  | .friend => .ok (some .internal)
  | .shared => .ok (some .static)
  | .shadows => .ok (some .new)
  | .overridable => .ok (some .virtual)
  | .overrides => .ok (some .override)
  | .notOverridable | .notInheritable => .ok (some .sealed)
  | .mustOverride | .mustInherit => .ok (some .abstract)
  | .partial => .ok (some .partial)
  | .async => .ok (some .async)
  | .widening => .ok (some .implicit)
  | .narrowing => .ok (some .explicit)
  | .const => .ok (some .const)
  | .byRef => .ok (some .ref)
  | .paramArray => .ok (some .params)
  | .readOnly => .ok (if site = .variableOrConst then some .readonly else none)
  | .static =>
    .error (.unsupported "StaticKeyword" "static local variables have no C# equivalent")
  | .writeOnly | .dim | .byVal | .optional | .overloads | .iterator | .default | .withEvents
  | .custom | .key => .ok none

namespace Modifiers

/-- Adds a modifier that is not there yet. -/
def add (modifiers : List Target.Modifier) (modifier : Target.Modifier) : List Target.Modifier :=
  if modifiers.contains modifier then modifiers else modifiers ++ [modifier]

/-- Modifiers of the target, those of the source coming behind the ones that are there. In an
interface visibility is left out. -/
def convertFrom (site : ModifierSite) (done : List Target.Modifier) :
    List Source.Modifier → Except ConversionError (List Target.Modifier)
  | [] => .ok done
  | modifier :: rest =>
    if site = .memberInInterface && modifier.isVisibility then convertFrom site done rest
    else
      match modifier.convert site with
      | .error error => .error error
      | .ok none => convertFrom site done rest
      | .ok (some token) => convertFrom site (add done token) rest

/-- Whether modifiers make a declaration shared by all instances. -/
def isShared (modifiers : List Target.Modifier) : Bool :=
  modifiers.contains .static || modifiers.contains .const

/-- The modifiers of a declaration. -/
def convert (site : ModifierSite) (modifiers : List Source.Modifier) :
    Except ConversionError (List Target.Modifier) := do
  let first := if site.defaultsToPublic && !modifiers.any (·.isVisibility) then [.public] else []
  let converted ← convertFrom site first modifiers
  return if site = .memberInModule && !isShared converted then converted ++ [.static] else converted

end Modifiers

/-- Where the members of the innermost type block stand. -/
def Convert.memberSite : Convert ModifierSite := do
  match ← container? with
  | some container => return .ofContainer container.kind
  | none => return .member

end Sharpen

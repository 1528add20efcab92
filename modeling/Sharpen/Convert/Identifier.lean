import Sharpen.Source.Name

/-!
# Identifiers

An identifier that is a keyword of the target is marked with `@`; the brackets that mark keywords of
the source are taken off.
-/

namespace Sharpen

def targetKeywords : List String :=
  ["abstract", "as", "base", "bool", "break", "byte", "case", "catch", "char", "checked", "class",
    "const", "continue", "decimal", "default", "delegate", "do", "double", "else", "enum", "event",
    "explicit", "extern", "false", "finally", "fixed", "float", "for", "foreach", "goto", "if",
    "implicit", "in", "int", "interface", "internal", "is", "lock", "long", "namespace", "new",
    "null", "object", "operator", "out", "override", "params", "private", "protected", "public",
    "readonly", "ref", "return", "sbyte", "sealed", "short", "sizeof", "stackalloc", "static",
    "string", "struct", "switch", "this", "throw", "true", "try", "typeof", "uint", "ulong",
    "unchecked", "unsafe", "ushort", "using", "virtual", "void", "volatile", "while"]

def isTargetKeyword (text : String) : Bool :=
  targetKeywords.contains text

/-- The identifier in the target: `[Class]` is `Class`, and `[lock]` is `@lock`. -/
def convertIdentifier (text : String) : String :=
  let plain := Source.unescapeIdentifier text
  if isTargetKeyword plain then "@" ++ plain else plain

end Sharpen

import Sharpen.Json.Number

/-!
# Reading JSON text

Text is cut into tokens one character at a time (`scan?`) and the tokens are put together on a stack
of open arrays and objects (`ofTokens?`). The grammar is strict: blanks are space, tab, line feed
and carriage return only, a string holds no control character, and nothing follows the value. What
is well formed may still be unreadable: a number out of range, or a string in which half a surrogate
pair is missing. `skim?` leaves such a part in its place, for it may be one that nobody asks for;
`parse?` refuses the text.
-/

namespace Sharpen.Json

/-- A token of JSON text. -/
inductive Token where
  | openArray | closeArray | openObject | closeObject | comma | colon
  /-- a string, absent when it is unreadable, and whether it is written without escapes -/
  | string (value : Option String) (plain : Bool)
  | scalar (value : Json)

/-! ## Tokens -/

/-- The string that is being read. -/
structure Spelled where
  /-- the characters in reverse -/
  done : List Char := []
  /-- a high surrogate that waits for its other half -/
  high : Option Nat := none
  /-- half of a surrogate pair stands alone -/
  broken : Bool := false
  /-- no escape so far -/
  plain : Bool := true

namespace Spelled

/-- A character more. A high surrogate before it stays alone. -/
def push (c : Char) (spelled : Spelled) : Spelled :=
  { spelled with
    done := c :: spelled.done
    high := none
    broken := spelled.broken || spelled.high.isSome }

/-- A code unit more, written as `\u` and its digits. -/
def pushUnit (unit : Nat) (spelled : Spelled) : Spelled :=
  if 0xDC00 ≤ unit ∧ unit < 0xE000 then
    match spelled.high with
    | some high =>
      { spelled with
        done := Char.ofNat (0x10000 + (high - 0xD800) * 0x400 + (unit - 0xDC00)) :: spelled.done
        high := none }
    | none => { spelled with broken := true }
  else if 0xD800 ≤ unit ∧ unit < 0xDC00 then
    { spelled with high := some unit, broken := spelled.broken || spelled.high.isSome }
  else spelled.push (Char.ofNat unit)

def token (spelled : Spelled) : Token :=
  if spelled.broken || spelled.high.isSome then .string none spelled.plain
  else .string (some (String.ofList spelled.done.reverse)) spelled.plain

end Spelled

/-- Where the scanner stands. -/
inductive Scanning where
  | between
  | string (spelled : Spelled)
  /-- behind a backslash -/
  | escape (spelled : Spelled)
  /-- behind `\u` and some of its digits, which are kept in reverse -/
  | unicode (spelled : Spelled) (digits : List Char)
  /-- in a number or a word, its characters kept in reverse -/
  | plain (done : List Char)

/-- The scanner: where it stands and the tokens read, in reverse. -/
structure Scanner where
  place : Scanning
  tokens : List Token

/-- Characters between tokens. -/
def isGap (c : Char) : Bool :=
  c == ' ' || c == '\t' || c == '\n' || c == '\r'

/-- Characters of numbers and words. -/
def isPlain (c : Char) : Bool :=
  c.isDigit || c.isLower || c == '-' || c == '+' || c == '.' || c == 'E'

/-- The value of a number or a word. -/
def plain? (cs : List Char) : Option Json :=
  match String.ofList cs with
  | "null" => some .null
  | "true" => some (.bool true)
  | "false" => some (.bool false)
  | _ => number? cs

def hexValue? (c : Char) : Option Nat :=
  if c.isDigit then some (c.toNat - '0'.toNat)
  else if 'a' ≤ c ∧ c ≤ 'f' then some (c.toNat - 'a'.toNat + 10)
  else if 'A' ≤ c ∧ c ≤ 'F' then some (c.toNat - 'A'.toNat + 10)
  else none

/-- The number that four hexadecimal digits write. -/
def hexNumber? (digits : List Char) : Option Nat :=
  digits.foldlM (fun number digit => (hexValue? digit).map (number * 16 + ·)) 0

/-- The character that a letter behind a backslash stands for. -/
def escaped? : Char → Option Char
  | '"' => some '"'
  | '\\' => some '\\'
  | '/' => some '/'
  | 'b' => some (Char.ofNat 8)
  | 'f' => some (Char.ofNat 12)
  | 'n' => some '\n'
  | 'r' => some '\r'
  | 't' => some '\t'
  | _ => none

/-- One character between tokens. -/
def Scanner.start? (tokens : List Token) (c : Char) : Option Scanner :=
  match c with
  | '[' => some ⟨.between, .openArray :: tokens⟩
  | ']' => some ⟨.between, .closeArray :: tokens⟩
  | '\x7b' => some ⟨.between, .openObject :: tokens⟩
  | '\x7d' => some ⟨.between, .closeObject :: tokens⟩
  | ',' => some ⟨.between, .comma :: tokens⟩
  | ':' => some ⟨.between, .colon :: tokens⟩
  | '"' => some ⟨.string {}, tokens⟩
  | c =>
    if isGap c then some ⟨.between, tokens⟩
    else if isPlain c then some ⟨.plain [c], tokens⟩
    else none

/-- One character further. -/
def Scanner.step? (scanner : Scanner) (c : Char) : Option Scanner :=
  match scanner.place with
  | .between => Scanner.start? scanner.tokens c
  | .string spelled =>
    if c == '"' then some ⟨.between, spelled.token :: scanner.tokens⟩
    else if c == '\\' then some ⟨.escape { spelled with plain := false }, scanner.tokens⟩
    else if c.toNat < 0x20 then none
    else some ⟨.string (spelled.push c), scanner.tokens⟩
  | .escape spelled =>
    if c == 'u' then some ⟨.unicode spelled [], scanner.tokens⟩
    else (escaped? c).map fun meant => ⟨.string (spelled.push meant), scanner.tokens⟩
  | .unicode spelled digits =>
    if digits.length < 3 then some ⟨.unicode spelled (c :: digits), scanner.tokens⟩
    else do
      let unit ← hexNumber? (c :: digits).reverse
      return ⟨.string (spelled.pushUnit unit), scanner.tokens⟩
  | .plain done =>
    if isPlain c then some ⟨.plain (c :: done), scanner.tokens⟩
    else do
      let value ← plain? done.reverse
      Scanner.start? (.scalar value :: scanner.tokens) c

/-- The tokens when the text ends. -/
def Scanner.finish? (scanner : Scanner) : Option (List Token) :=
  match scanner.place with
  | .between => some scanner.tokens.reverse
  | .plain done => do
    let value ← plain? done.reverse
    return (.scalar value :: scanner.tokens).reverse
  | _ => none

def scan? (text : String) : Option (List Token) := do
  (← text.toList.foldlM Scanner.step? ⟨.between, []⟩).finish?

/-! ## Values -/

/-- The fields of an object that have been read, in reverse, and how their names are written. -/
structure Members where
  fields : List (String × Json) := []
  /-- no name holds an escape -/
  plain : Bool := true
  /-- a name is unreadable -/
  broken : Bool := false

namespace Members

/-- A field more. -/
def push (name : Option String) (plain : Bool) (value : Json) (members : Members) : Members where
  fields := (name.getD "", value) :: members.fields
  plain := members.plain && plain
  broken := members.broken || name.isNone

/-- The object with these fields. -/
def close (members : Members) : Json :=
  if members.broken then .unreadable
  else if members.plain then .obj members.fields.reverse
  else .escaped members.fields.reverse

end Members

/-- An array or object that is still open, with what it holds in reverse. An object also knows the
name of the field whose value is being read. -/
inductive Frame where
  | array (items : List Json)
  | object (members : Members) (name : Option String) (plain : Bool)

/-- What may come next. -/
inductive Expecting where
  | value
  /-- a value, or the end of the array just opened -/
  | item
  /-- a name, or the end of the object just opened -/
  | member
  | name (members : Members)
  | colon (members : Members) (name : Option String) (plain : Bool)
  | after (value : Json)

/-- The open arrays and objects, innermost first, and what may come next. -/
structure Assembly where
  frames : List Frame
  next : Expecting

/-- The start of a value. -/
def Assembly.begin? (frames : List Frame) : Token → Option Assembly
  | .openArray => some ⟨.array [] :: frames, .item⟩
  | .openObject => some ⟨frames, .member⟩
  | .string value _ => some ⟨frames, .after (value.elim .unreadable .str)⟩
  | .scalar value => some ⟨frames, .after value⟩
  | _ => none

/-- One token further. -/
def Assembly.step? (assembly : Assembly) (token : Token) : Option Assembly :=
  match assembly.next, assembly.frames, token with
  | .value, frames, token => begin? frames token
  | .item, .array items :: rest, .closeArray => some ⟨rest, .after (.arr items.reverse)⟩
  | .item, frames, token => begin? frames token
  | .member, rest, .closeObject => some ⟨rest, .after (.obj [])⟩
  | .member, rest, .string name plain => some ⟨rest, .colon {} name plain⟩
  | .name members, rest, .string name plain => some ⟨rest, .colon members name plain⟩
  | .colon members name plain, rest, .colon => some ⟨.object members name plain :: rest, .value⟩
  | .after value, .array items :: rest, .comma => some ⟨.array (value :: items) :: rest, .value⟩
  | .after value, .array items :: rest, .closeArray =>
    some ⟨rest, .after (.arr (value :: items).reverse)⟩
  | .after value, .object members name plain :: rest, .comma =>
    some ⟨rest, .name (members.push name plain value)⟩
  | .after value, .object members name plain :: rest, .closeObject =>
    some ⟨rest, .after (members.push name plain value).close⟩
  | _, _, _ => none

/-- The value that tokens write. -/
def ofTokens? (tokens : List Token) : Option Json := do
  match ← tokens.foldlM Assembly.step? ⟨[], .value⟩ with
  | ⟨[], .after value⟩ => some value
  | _ => none

/-- The value that a text writes, some of whose parts may be unreadable. -/
def skim? (text : String) : Option Json := do
  ofTokens? (← scan? text)

/-- The value that a text writes. -/
def parse? (text : String) : Option Json :=
  (skim? text).filter isReadable

end Sharpen.Json

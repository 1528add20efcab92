import Sharpen.Comment
import Sharpen.Json.Record

/-!
# Comments in JSON

Comments are exchanged as a record with the fields `leading` and `trailing`, both of which may be
left out.
-/

namespace Sharpen.Trivia

open Json.Reader in
/-- Reads comments. -/
def read? (given : Json.Given) : Option Trivia :=
  Json.readRecord given do
    let leading ← valueD "leading" [] (Json.Given.list? Json.Given.str?)
    let trailing ← value? "trailing" Json.Given.str?
    return { leading, trailing }

/-- Reads comments from JSON. -/
def ofJson? (json : Json) : Option Trivia :=
  read? { json }

/-- Writes comments. -/
def toJson (trivia : Trivia) : Json :=
  .obj [("leading", Json.ofStrings trivia.leading),
    ("trailing", Json.ofOption .str trivia.trailing)]

end Sharpen.Trivia

import ApiPages.Json.Numeral

/-!
# JSON values
-/

namespace ApiPages

/-- A JSON value. The members of an object stay in the order of the text, repeated keys included. -/
inductive Json where
  | null
  | boolean (b : Bool)
  | number (n : Numeral)
  | text (s : String)
  | array (elements : List Json)
  | object (members : List (String × Json))

end ApiPages

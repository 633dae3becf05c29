import TreeDigest.Decimal.Binary64

/-!
Values of TOML documents.
-/

namespace TreeDigest.Toml

/-- A value. Dates and times are kept as their usual text. -/
inductive Value where
  | text (s : String)
  | integer (n : Int)
  | float (x : Binary64)
  | boolean (b : Bool)
  | moment (text : String)
  | array (items : List Value)
  | table (fields : List (String × Value))
  deriving Inhabited

/-- The fields of a table. -/
abbrev Fields := List (String × Value)

end TreeDigest.Toml

/-!
Values of a TOML document. Numbers with a fraction and dates keep their spelling, because nothing here
computes with them.
-/

namespace Accessors

inductive Toml where
  | string (text : String)
  | integer (value : Int)
  | float (spelling : String)
  | boolean (value : Bool)
  | date (spelling : String)
  | array (elements : List Toml)
  | table (entries : List (String × Toml))
  deriving Inhabited

end Accessors

/-! What keeps a value of the model from being built. -/
namespace DeviceLink

/-- A rule of the model that a value would break. -/
inductive Violation
  /-- A reading without values. -/
  | emptyValues (reference : String)
  /-- A mandatory part that is the empty text. -/
  | emptyField (field : String)
  /-- A token outside its vocabulary. -/
  | invalidToken (vocabulary token : String)
  deriving DecidableEq, Repr

def Violation.message : Violation → String
  | .emptyValues reference => "Reading '" ++ reference ++ "' has no values"
  | .emptyField field => "Empty field: " ++ field
  | .invalidToken vocabulary token => "Invalid " ++ vocabulary ++ " token: '" ++ token ++ "'"

end DeviceLink

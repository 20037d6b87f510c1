/-!
# Authentication errors

## Main Definitions

* `AccessError` — why a caller is not known, or cannot be made known
* `AccessError.message` — its text
-/

namespace ArithService

/-- Why authentication had no success. -/
inductive AccessError where
  | missingToken
  | invalidToken
  | invalidCredentials
  | tokenCreation (detail : String)
  /-- A password could not be hashed. -/
  | hashing (detail : String)
deriving DecidableEq, Repr

/-- The text of an authentication error. -/
def AccessError.message : AccessError → String
  | .missingToken => "Missing token"
  | .invalidToken => "Invalid token"
  | .invalidCredentials => "Invalid credentials"
  | .tokenCreation detail => "Failed to generate token: " ++ detail
  | .hashing detail => "Password hashing failed: " ++ detail

end ArithService

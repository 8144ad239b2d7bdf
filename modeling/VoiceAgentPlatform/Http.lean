import Mathlib.Data.Nat.Notation

/-!
# HTTP errors

The error responses of the routes. The texts that a message interpolates are kept beside it, each in
the place of a `%`.

* `HTTPException`: status, detail and interpolated texts.
-/

/-- An error response: `HTTPException(status_code, detail)`. -/
structure HTTPException where
  status : ℕ
  detail : String
  args : List String := []
  deriving DecidableEq

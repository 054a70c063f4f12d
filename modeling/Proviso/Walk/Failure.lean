/- # Proviso.Walk.Failure -- what was found wrong -/
import Proviso.Walk.Path

namespace Proviso

set_option autoImplicit false

/-- A field whose rule failed. -/
structure FieldError where
  path : FieldPath
  /-- What is wrong, if the rule says so. -/
  message : Option String
  deriving DecidableEq, Repr

def FieldError.text (error : FieldError) : String :=
  error.message.getD ("invalid parameter: " ++ error.path.render)

/-- The fields whose rules failed, in the order in which they were found. -/
structure FieldErrors where
  errors : List FieldError
  /-- What stands between the texts of two errors. -/
  separator : String
  deriving DecidableEq, Repr

def FieldErrors.text (errors : FieldErrors) : String :=
  errors.separator.intercalate (errors.errors.map FieldError.text)

end Proviso

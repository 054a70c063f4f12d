/- # Proviso.Pattern.Library -- compiled patterns

How patterns are written, and which stretches of a text they describe, is up to a library.  All that
depends on patterns takes the library as a parameter, and relies on no more than that what a text is
compiled to is a function of the text. -/

namespace Proviso

set_option autoImplicit false

class PatternLibrary where
  /-- Compiled patterns. -/
  Compiled : Type
  /-- Texts that are no pattern are compiled to nothing. -/
  compile? : String → Option Compiled
  /-- Whether the pattern describes some stretch of the text. -/
  isMatch : Compiled → String → Bool

end Proviso

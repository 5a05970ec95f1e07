/-
# Preferences

What the user has chosen and the calculator keeps beside the history.
-/

import PocketCalculator.Function

namespace PocketCalculator

/-- The choices that are kept between sessions. -/
structure Preferences where
  angle : AngleMode
  deriving DecidableEq

/-- The choices of a calculator that is used for the first time. -/
def Preferences.standard : Preferences := ⟨.standard⟩

end PocketCalculator

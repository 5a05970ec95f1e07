/-
# What outlives a session

A storage keeps two texts, each of which may be absent. Saving writes the history and the
preferences; restoring starts a session with what can be read of them. A text that is absent or
malformed is replaced by the empty history or the standard preferences, whatever the other text is.
-/

import PocketCalculator.Archive
import PocketCalculator.Session

namespace PocketCalculator

/-- The texts that are kept between sessions. -/
structure Storage where
  history : Option Text
  preferences : Option Text
  deriving DecidableEq

namespace Storage

/-- A storage in which nothing has been kept. -/
def empty : Storage := ⟨none, none⟩

/-- The history that is kept, before it is bounded. -/
def readHistory (storage : Storage) : History :=
  (storage.history.bind (History.read? .bare)).getD .empty

/-- The preferences that are kept. -/
def readPreferences (storage : Storage) : Preferences :=
  (storage.preferences.bind (Preferences.read? .bare)).getD .standard

end Storage

namespace Session

/-- A session that starts with what is kept. -/
def restore (storage : Storage) : Session :=
  .new storage.readHistory.bounded storage.readPreferences

/-- What a session leaves to be kept. -/
def save (s : Session) : Storage :=
  ⟨some (s.history.write .bare), some (s.preferences.write .bare)⟩

/-- A session that is saved and started again: what is not kept is lost. -/
def reload (s : Session) : Session := restore s.save

end Session
end PocketCalculator

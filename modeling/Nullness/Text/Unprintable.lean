import Nullness.Text.Mark
import Nullness.Text.Unassigned

/-!
# Characters that a quoted text spells out

The characters beyond the printable ASCII ones that are shown by number: those that
leave nothing to be seen, those that are no characters, and marks that would melt into
the character before them.
-/

namespace Nullness

namespace Text

/-- Controls, formats, blanks other than the plain one, fillers and private characters. -/
def blind : CharSet := .ofLines [
  "7f-a0 ad 600-605 61c 6dd 70f 890-891 8e2 115f-1160 1680 180e 2000-200f 2028-202f 205f-2064",
  "2066-206f 3000 3164 e000-f8ff feff ffa0 fff9-fffb 110bd 110cd 13430-1343f 1bca0-1bca3",
  "1d173-1d17a e0001 e0020-e007f f0000-ffffd 100000-10fffd"]

/-- A character beyond ASCII, or a delete, that is shown by number. -/
def isUnprintable (c : Char) : Bool :=
  '~' < c &&
    (blind.contains c || nonspacingMarks.contains c || extendingMarks.contains c ||
      unassigned.contains c)

end Text

end Nullness

import Stencil.Text.Blank

/-! Names of variables: how a name is read from a placeholder, and when two names are the same. -/

namespace Stencil.Placeholder

open Text

/-- The name that the text inside a placeholder writes: without blanks at its ends and with an
underscore for each run of blanks. -/
def cleanName (s : List Char) : List Char := collapse '_' (strip s)

/-- The letters and digits of a name in lower case. Names with one key are the same name. -/
def key (name : List Char) : List Char := (name.filter Char.isAlphanum).map Char.toLower

end Stencil.Placeholder

import Stencil.Value.Basic

/-!
The services that may help with a document: one finds variables in a text, one writes text.

Both are functions, so that the same request always has the same answer.  Their answers are
free-form data or the reason why there is none; who asks decides what to do with either.
-/

namespace Stencil

/-- Looks for variables in a text. -/
abbrev Detector := (text : String) → Except String Value

/-- Writes text for a prompt, given the beginning of the document. -/
abbrev Generator := (request context : String) → Except String Value

end Stencil

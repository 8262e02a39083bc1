import Stencil.Text.Quoted

/-! What can be wrong with a written pattern, and how it is said. -/

namespace Stencil.Pattern

/-- Why a text is no pattern. -/
inductive FaultCause
  | endsInEscape
  | badEscape (escape : String)
  | incompleteEscape (escape : String)
  | octalOutOfRange (escape : String)
  | unknownCharacter (name : String)
  /-- Something that has to stand at the place does not. -/
  | missing (what : String)
  | badGroupReference (index : Nat)
  | badGroupNumber
  | openGroupReference
  | referenceInsideBehind
  | unterminatedSet
  | badRange (low high : String)
  | nothingToRepeat
  | repeatedTwice
  | leastAboveMost
  | tooManyRepetitions
  | unbalancedParenthesis
  | endInGroup
  | tooManyBranches
  | unknownExtension (opening : String)
  | badGroupName (name : String)
  | groupNameTaken (name : String) (index earlier : Nat)
  | unknownGroupName (name : String)
  | unknownFlag
  | localeFlag
  | mixedTypeFlags
  | mixedTypes
  | typeFlagOff
  | globalFlagOn
  | globalFlagOff
  | flagOnAndOff
  | flagsNotAtStart
  /-- The pattern may hold no repetition, but there is one. -/
  | unsupportedRepetition (kind : String)
  | tooFarBehind
  | widthVariesBehind

def FaultCause.message : FaultCause → String
  | .endsInEscape => "bad escape (end of pattern)"
  | .badEscape e => "bad escape " ++ e
  | .incompleteEscape e => "incomplete escape " ++ e
  | .octalOutOfRange e => "octal escape value " ++ e ++ " outside of range 0-0o377"
  | .unknownCharacter name => "undefined character name " ++ Text.quoted name
  | .missing what => "missing " ++ what
  | .badGroupReference n => "invalid group reference " ++ toString n
  | .badGroupNumber => "bad group number"
  | .openGroupReference => "cannot refer to an open group"
  | .referenceInsideBehind => "cannot refer to group defined in the same lookbehind subpattern"
  | .unterminatedSet => "unterminated character set"
  | .badRange low high => "bad character range " ++ low ++ "-" ++ high
  | .nothingToRepeat => "nothing to repeat"
  | .repeatedTwice => "multiple repeat"
  | .leastAboveMost => "min repeat greater than max repeat"
  | .tooManyRepetitions => "the repetition number is too large"
  | .unbalancedParenthesis => "unbalanced parenthesis"
  | .endInGroup => "unexpected end of pattern"
  | .tooManyBranches => "conditional backref with more than two branches"
  | .unknownExtension opening => "unknown extension " ++ opening
  | .badGroupName name => "bad character in group name " ++ Text.quoted name
  | .groupNameTaken name index earlier =>
    "redefinition of group name " ++ Text.quoted name ++ " as group " ++ toString index ++
      "; was group " ++ toString earlier
  | .unknownGroupName name => "unknown group name " ++ Text.quoted name
  | .unknownFlag => "unknown flag"
  | .localeFlag => "bad inline flags: cannot use 'L' flag with a str pattern"
  | .mixedTypeFlags => "bad inline flags: flags 'a', 'u' and 'L' are incompatible"
  | .mixedTypes => "ASCII and UNICODE flags are incompatible"
  | .typeFlagOff => "bad inline flags: cannot turn off flags 'a', 'u' and 'L'"
  | .globalFlagOn => "bad inline flags: cannot turn on global flag"
  | .globalFlagOff => "bad inline flags: cannot turn off global flag"
  | .flagOnAndOff => "bad inline flags: flag turned on and off"
  | .flagsNotAtStart => "global flags not at the start of the expression"
  | .unsupportedRepetition kind => "internal: unsupported template operator " ++ kind
  | .tooFarBehind => "looks too much behind"
  | .widthVariesBehind => "look-behind requires fixed-width pattern"

/-- A fault: its cause and, where it has one, its place, as the number of characters from there to
the end of the pattern. -/
structure Fault where
  cause : FaultCause
  toEnd : Option Nat

/-- The fault in words, with its place; a pattern of several lines has line and column as well. -/
def Fault.message (source : List Char) (fault : Fault) : String :=
  match fault.toEnd with
  | none => fault.cause.message
  | some n =>
    let position := source.length - n
    let before := source.take position
    let place := fault.cause.message ++ " at position " ++ toString position
    if source.contains '\n' then
      let line := before.count '\n' + 1
      let column := (before.reverse.takeWhile (· != '\n')).length + 1
      place ++ " (line " ++ toString line ++ ", column " ++ toString column ++ ")"
    else place

end Stencil.Pattern

import BaseLib.Error
import BaseLib.Text.Quoted

namespace BaseLib.Regex

inductive Flaw
  | trailingBackslash
  | badEscape (escape : String)
  | incompleteEscape (escape : String)
  | octalTooLarge (escape : String)
  | openGroup
  | sameLookbehindGroup
  | noSuchGroup (group : Nat)
  | groupZero
  | unknownName (name : String)
  | badName (name : String)
  | redefinedName (name : String) (group earlier : Nat)
  | missing (what : String)
  | unterminatedName (terminator : String)
  | unknownCharacter (name : String)
  | unterminatedSet
  | badRange (low high : String)
  | repeatOrder
  | nothingToRepeat
  | multipleRepeat
  | unexpectedEnd
  | unknownExtension (text : String)
  | unterminatedComment
  | unterminatedGroup
  | manyBranches
  | lateFlags
  | localeFlag
  | incompatibleFlags
  | unknownFlag
  | globalFlagOn
  | globalFlagOff
  | alphabetFlagOff
  | flagOnAndOff
  | unbalanced
  | varyingLookbehind
  | longLookbehind
  | templateRepeat (kind : String)
  deriving DecidableEq, Repr

def Flaw.text : Flaw → String
  | trailingBackslash => "bad escape (end of pattern)"
  | badEscape e => "bad escape " ++ e
  | incompleteEscape e => "incomplete escape " ++ e
  | octalTooLarge e => "octal escape value " ++ e ++ " outside of range 0-0o377"
  | openGroup => "cannot refer to an open group"
  | sameLookbehindGroup => "cannot refer to group defined in the same lookbehind subpattern"
  | noSuchGroup g => "invalid group reference " ++ toString g
  | groupZero => "bad group number"
  | unknownName n => "unknown group name " ++ quoted n
  | badName n => "bad character in group name " ++ quoted n
  | redefinedName n g e =>
    "redefinition of group name " ++ quoted n ++ " as group " ++ toString g ++ "; was group " ++
      toString e
  | missing what => "missing " ++ what
  | unterminatedName t => "missing " ++ t ++ ", unterminated name"
  | unknownCharacter n => "undefined character name " ++ quoted n
  | unterminatedSet => "unterminated character set"
  | badRange low high => "bad character range " ++ low ++ "-" ++ high
  | repeatOrder => "min repeat greater than max repeat"
  | nothingToRepeat => "nothing to repeat"
  | multipleRepeat => "multiple repeat"
  | unexpectedEnd => "unexpected end of pattern"
  | unknownExtension t => "unknown extension " ++ t
  | unterminatedComment => "missing ), unterminated comment"
  | unterminatedGroup => "missing ), unterminated subpattern"
  | manyBranches => "conditional backref with more than two branches"
  | lateFlags => "global flags not at the start of the expression"
  | localeFlag => "bad inline flags: cannot use 'L' flag with a str pattern"
  | incompatibleFlags => "bad inline flags: flags 'a', 'u' and 'L' are incompatible"
  | unknownFlag => "unknown flag"
  | globalFlagOn => "bad inline flags: cannot turn on global flag"
  | globalFlagOff => "bad inline flags: cannot turn off global flag"
  | alphabetFlagOff => "bad inline flags: cannot turn off flags 'a', 'u' and 'L'"
  | flagOnAndOff => "bad inline flags: flag turned on and off"
  | unbalanced => "unbalanced parenthesis"
  | varyingLookbehind => "look-behind requires fixed-width pattern"
  | longLookbehind => "looks too much behind"
  | templateRepeat kind => "internal: unsupported template operator " ++ kind
where
  quoted (s : String) : String := String.ofList (Text.Quoted.encode (Text.plain s))

inductive Refusal
  | flaw (f : Flaw) (offset : Option Nat)
  | misuse (m : Misuse)
  deriving DecidableEq, Repr

end BaseLib.Regex

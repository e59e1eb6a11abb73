import BaseLib.Calendar.DateTime
import BaseLib.Number.Parse
import BaseLib.Regex.Match

namespace BaseLib

inductive StringComparison
  | currentCulture
  | currentCultureIgnoreCase
  | invariantCulture
  | invariantCultureIgnoreCase
  | ordinal
  | ordinalIgnoreCase
  deriving DecidableEq, Repr, Inhabited

namespace StringComparison

def all : List StringComparison :=
  [currentCulture, currentCultureIgnoreCase, invariantCulture, invariantCultureIgnoreCase, ordinal,
    ordinalIgnoreCase]

def name : StringComparison → String
  | currentCulture => "CurrentCulture"
  | currentCultureIgnoreCase => "CurrentCultureIgnoreCase"
  | invariantCulture => "InvariantCulture"
  | invariantCultureIgnoreCase => "InvariantCultureIgnoreCase"
  | ordinal => "Ordinal"
  | ordinalIgnoreCase => "OrdinalIgnoreCase"

def ignoresCase : StringComparison → Bool
  | currentCultureIgnoreCase | invariantCultureIgnoreCase | ordinalIgnoreCase => true
  | _ => false

end StringComparison

inductive CursorState
  | notStarted
  | positioned
  | exhausted
  deriving DecidableEq, Repr, Inhabited

namespace CursorState

def all : List CursorState := [notStarted, positioned, exhausted]

def name : CursorState → String
  | notStarted => "NotStarted"
  | positioned => "Positioned"
  | exhausted => "Exhausted"

def label : CursorState → String
  | notStarted => "not-started"
  | positioned => "positioned"
  | exhausted => "exhausted"

end CursorState

namespace DateTimeKind

def all : List DateTimeKind := [localTime, unspecified, utc]

def name : DateTimeKind → String
  | localTime => "Local"
  | unspecified => "Unspecified"
  | utc => "Utc"

end DateTimeKind

namespace Decimal.Midpoint

def all : List Midpoint := [awayFromZero, toEven]

def name : Midpoint → String
  | awayFromZero => "AwayFromZero"
  | toEven => "ToEven"

def rule : Midpoint → String
  | awayFromZero => "ROUND_HALF_UP"
  | toEven => "ROUND_HALF_EVEN"

end Decimal.Midpoint

inductive Symbol
  | kind (k : DateTimeKind)
  | midpoint (m : Decimal.Midpoint)
  | comparison (c : StringComparison)
  | cursorState (s : CursorState)
  deriving DecidableEq, Repr, Inhabited

namespace Symbol

def all : List Symbol :=
  DateTimeKind.all.map kind ++ Decimal.Midpoint.all.map midpoint ++
    StringComparison.all.map comparison ++ CursorState.all.map cursorState

def typeName : Symbol → String
  | kind _ => "DateTimeKind"
  | midpoint _ => "MidpointRounding"
  | comparison _ => "StringComparison"
  | cursorState _ => "CursorState"

def memberName : Symbol → String
  | kind k => k.name
  | midpoint m => m.name
  | comparison c => c.name
  | cursorState s => s.name

def path (s : Symbol) : String := s.typeName ++ "." ++ s.memberName

def valueText : Symbol → String
  | kind k => toString (DateTimeKind.all.idxOf k)
  | midpoint m => "'" ++ m.rule ++ "'"
  | comparison c => toString (StringComparison.all.idxOf c)
  | cursorState s => "'" ++ s.label ++ "'"

def ofPath? (path : String) : Option Symbol := all.find? (·.path == path)

end Symbol

inductive FlagType
  | regexOptions
  | numberStyles
  deriving DecidableEq, Repr, Inhabited

namespace FlagType

def all : List FlagType := [regexOptions, numberStyles]

def name : FlagType → String
  | regexOptions => "RegexOptions"
  | numberStyles => "NumberStyles"

def members : FlagType → List (String × Nat)
  | regexOptions =>
    [("None_", 0), ("IgnoreCase", 1), ("Multiline", 2), ("ExplicitCapture", 4), ("Compiled", 8),
      ("Singleline", 16), ("IgnorePatternWhitespace", 32), ("RightToLeft", 64), ("ECMAScript", 256),
      ("CultureInvariant", 512)]
  | numberStyles =>
    [("None_", 0), ("AllowLeadingWhite", 1), ("AllowTrailingWhite", 2), ("AllowLeadingSign", 4),
      ("AllowDecimalPoint", 32), ("AllowThousands", 64), ("AllowExponent", 128),
      ("AllowHexSpecifier", 512), ("Integer", 7), ("HexNumber", 515), ("Float", 167),
      ("Number", 111), ("Any", 511)]

def isSingle (bits : Nat) : Bool := bits != 0 && bits &&& (bits - 1) == 0

def setText (t : FlagType) (bits : Nat) : String :=
  match t.members.find? (·.2 == bits) with
  | some (name, _) => name
  | none =>
    let flags := t.members.filter fun (_, b) => isSingle b && b &&& bits != 0
    let rest := bits - (flags.map (·.2)).foldl Nat.add 0
    "|".intercalate (flags.map (·.1) ++ if rest = 0 then [] else [toString rest])

end FlagType

def weekdayName (day : Nat) : String := Civil.weekdayNames.getD day ""

end BaseLib

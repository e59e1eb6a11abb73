import BaseLib.Text.Utf16

namespace BaseLib

inductive ErrorKind
  | general
  | argument
  | argumentNull
  | argumentOutOfRange
  | format
  | keyNotFound
  | invalidOperation
  | notSupported
  | notImplemented
  | overflow
  deriving DecidableEq, Repr, Inhabited

namespace ErrorKind

def all : List ErrorKind :=
  [general, argument, argumentNull, argumentOutOfRange, format, keyNotFound, invalidOperation,
    notSupported, notImplemented, overflow]

def name : ErrorKind → String
  | general => "NException"
  | argument => "ArgumentException"
  | argumentNull => "ArgumentNullException"
  | argumentOutOfRange => "ArgumentOutOfRangeException"
  | format => "FormatException"
  | keyNotFound => "KeyNotFoundException"
  | invalidOperation => "InvalidOperationException"
  | notSupported => "NotSupportedException"
  | notImplemented => "NotImplementedException"
  | overflow => "OverflowException"

def defaultText : ErrorKind → String
  | general => "Exception of type 'NException' was thrown."
  | argument => "Value does not fall within the expected range."
  | argumentNull => "Value cannot be null."
  | argumentOutOfRange => "Specified argument was out of the range of valid values."
  | format => "One of the identified items was in an invalid format."
  | keyNotFound => "The given key was not present in the dictionary."
  | invalidOperation => "Operation is not valid due to the current state of the object."
  | notSupported => "Specified method is not supported."
  | notImplemented => "The method or operation is not implemented."
  | overflow => "Arithmetic operation resulted in an overflow."

def hasParam : ErrorKind → Bool
  | argument | argumentNull | argumentOutOfRange | format | keyNotFound => true
  | _ => false

end ErrorKind

/-- A cause that a member reports to its caller. Texts that show a value are kept as codes, since the value may
show a surrogate. -/
inductive Failure
  | custom (kind : ErrorKind) (text : List Nat) (param : Option String)
  -- arguments
  | nullArgument (param : String)
  | outOfRange (param : String)
  | elementIndex
  | textIndex (param : String)
  | nullCollection
  | boundsOutside
  | noSingleCharacter
  | noTextToIndex
  | emptyOldText
  | substringStart
  | substringEnd
  | removeEnd
  | negativeRepeat
  | negativePosition
  | byteOutside
  | undecodableByte
  | unwritable (typeName : String)
  | notADictionary
  -- state
  | incomparable
  | stackEmpty
  | keyMissing (key : List Nat)
  | keyTaken (key : List Nat)
  | notStarted
  | alreadyFinished
  | noElements
  | noMatchingElement
  | planned (member : String)
  | unsupported
  | pathWriter
  -- options
  | badNewLine (quoted : String)
  | badFlag (name quoted : String)
  -- numbers
  | badSpecifier
  | badCustomFormat (format : List Nat)
  | badNumber (text : String)
  | badBoolean (text : List Nat)
  | roundingDigits
  | nonFinite (member : String)
  | signOfNaN
  | negatedMinimum
  | badBase
  | outsideInt32
  -- composite formats
  | badComposite
  | missingArgument
  -- dates
  | durationArity
  | durationOverflow
  | durationNaN
  | noSuchDate
  | dateOverflow
  | badDateFormat (format : List Nat)
  -- patterns
  | badPattern (pattern offset reason : String)
  | rightToLeft
  | startOutside
  deriving DecidableEq, Repr, Inhabited

namespace Failure

def kind : Failure → ErrorKind
  | custom k _ _ => k
  | nullArgument _ => .argumentNull
  | outOfRange _ | elementIndex | textIndex _ | substringStart | substringEnd | removeEnd
  | negativeRepeat | negativePosition | byteOutside | roundingDigits | noSuchDate | dateOverflow
  | startOutside => .argumentOutOfRange
  | nullCollection | boundsOutside | noSingleCharacter | noTextToIndex | emptyOldText
  | undecodableByte | unwritable _ | notADictionary | badNewLine _ | badFlag _ _ | nonFinite _
  | signOfNaN | badBase | durationArity | durationNaN | badDateFormat _ | badPattern _ _ _ => .argument
  | incomparable | stackEmpty | keyTaken _ | notStarted | alreadyFinished | noElements
  | noMatchingElement => .invalidOperation
  | keyMissing _ => .keyNotFound
  | planned _ => .notImplemented
  | unsupported | pathWriter | rightToLeft => .notSupported
  | badSpecifier | badCustomFormat _ | badNumber _ | badBoolean _ | badComposite
  | missingArgument => .format
  | negatedMinimum | outsideInt32 | durationOverflow => .overflow

def param : Failure → Option String
  | custom _ _ p => p
  | nullArgument p | outOfRange p | textIndex p => some p
  | elementIndex => some "index"
  | nullCollection => some "collection"
  | noSingleCharacter => some "ch"
  | noTextToIndex => some "s"
  | emptyOldText => some "oldValue"
  | substringStart => some "startIndex"
  | substringEnd => some "length"
  | removeEnd | negativeRepeat => some "count"
  | negativePosition | unwritable _ | nonFinite _ | dateOverflow => some "value"
  | byteOutside => some "buffer"
  | undecodableByte => some "bytes"
  | notADictionary => some "dictionary"
  | badNewLine _ => some "CORLIB_NEWLINE"
  | badFlag name _ => some name
  | roundingDigits => some "digits"
  | badBase => some "toBase"
  | badDateFormat _ => some "format"
  | badPattern _ _ _ => some "pattern"
  | startOutside => some "startat"
  | _ => none

local instance : Coe String (List Nat) := ⟨Text.plain⟩

def text : Failure → List Nat
  | custom _ t _ => t
  | nullArgument _ => ErrorKind.argumentNull.defaultText
  | outOfRange _ => ErrorKind.argumentOutOfRange.defaultText
  | elementIndex =>
    "Index was out of range. Must be non-negative and less than the size of the collection."
  | textIndex _ => "Index was out of range."
  | nullCollection => "Value cannot be null."
  | boundsOutside =>
    "Offset and length were out of bounds for the array or count is greater than the number of " ++
      "elements from index to the end of the source collection."
  | noSingleCharacter => "Expected a single character."
  | noTextToIndex => "Expected a string with an index."
  | emptyOldText => "String cannot be of zero length."
  | substringStart => "startIndex cannot be larger than length of string."
  | substringEnd => "Index and length must refer to a location within the string."
  | removeEnd => "Index and count must refer to a location within the string."
  | negativeRepeat => "Count cannot be less than zero."
  | negativePosition => "Non-negative number required."
  | byteOutside | undecodableByte => "Byte values must be in 0..255."
  | unwritable typeName => "Cannot write a value of type " ++ typeName ++ "."
  | notADictionary => "Expected a dictionary to copy."
  | incomparable => "Failed to compare two elements in the array."
  | stackEmpty => "Stack empty."
  | keyMissing key =>
    Text.plain "The given key '" ++ key ++ Text.plain "' was not present in the dictionary."
  | keyTaken key => Text.plain "An item with the same key has already been added. Key: " ++ key
  | notStarted => "Enumeration has not started. Call MoveNext."
  | alreadyFinished => "Enumeration already finished."
  | noElements => "Sequence contains no elements"
  | noMatchingElement => "Sequence contains no matching element"
  | planned member => member ++ " is not implemented"
  | unsupported => ErrorKind.notSupported.defaultText
  | pathWriter => "StreamWriter over a file path is not supported."
  | badNewLine quoted => "CORLIB_NEWLINE must be 'lf' or 'crlf', got " ++ quoted
  | badFlag name quoted => name ++ " must be a boolean flag, got " ++ quoted
  | badSpecifier => "Format specifier was invalid."
  | badCustomFormat format => Text.plain "Format string '" ++ format ++ Text.plain "' is not supported."
  | badNumber t => "The input string '" ++ t ++ "' was not in a correct format."
  | badBoolean t => Text.plain "String '" ++ t ++ Text.plain "' was not recognized as a valid Boolean."
  | roundingDigits => "Rounding digits must be between 0 and 15, inclusive."
  | nonFinite member => member ++ " on non-finite value"
  | signOfNaN => "Function does not accept floating point Not-a-Number values."
  | negatedMinimum => "Negating the minimum value of a twos complement number is invalid."
  | badBase => "Invalid Base."
  | outsideInt32 => "Value was either too large or too small for an Int32."
  | badComposite => "Input string was not in a correct format."
  | missingArgument =>
    "Index (zero based) must be greater than or equal to zero and less than the size of the " ++
      "argument list."
  | durationArity => "TimeSpan takes 1, 3, 4 or 5 arguments."
  | durationOverflow => "TimeSpan overflowed because the duration is too long."
  | durationNaN => "TimeSpan does not accept floating point Not-a-Number values."
  | noSuchDate => "Year, Month, and Day parameters describe an un-representable DateTime."
  | dateOverflow => "The added or subtracted value results in an un-representable DateTime."
  | badDateFormat format => Text.plain "Unsupported DateTime format '" ++ format ++ Text.plain "'."
  | badPattern pattern offset reason =>
    "Invalid pattern '" ++ pattern ++ "' at offset " ++ offset ++ ". " ++ reason
  | rightToLeft => "RegexOptions.RightToLeft is not supported."
  | startOutside => "Start index cannot be less than 0 or greater than input length."

def message (f : Failure) : List Nat :=
  match f.param with
  | some p => if p = "" then f.text else f.text ++ Text.plain (" (Parameter '" ++ p ++ "')")
  | none => f.text

end Failure

/-- A call that the library does not describe at all: an operand of the wrong type, a number that no character
has. -/
inductive Misuse
  | wrongType
  | badValue
  | outsideHolder
  | noSuchMember
  | fixedOption
  | tooLarge
  | tooWide
  | abstractMember
  | exhausted
  | dividedByZero
  | unknownCodec
  | changedMeanwhile
  | tooDeep
  /-- A text with a surrogate that is to be written in an encoding. -/
  | unencodable
  /-- A text with a surrogate where only texts of characters are followed. -/
  | surrogate
  deriving DecidableEq, Repr, Inhabited

inductive Fault
  | failure (cause : Failure)
  | misuse (kind : Misuse)
  deriving DecidableEq, Repr, Inhabited

instance : Coe Failure Fault := ⟨.failure⟩

instance : Coe Misuse Fault := ⟨.misuse⟩

end BaseLib

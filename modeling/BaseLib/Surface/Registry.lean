namespace BaseLib.Surface

inductive MemberKind
  | method
  | property
  | field
  deriving DecidableEq, Repr

def MemberKind.name : MemberKind → String
  | method => "method"
  | property => "property"
  | field => "field"

structure Declared where
  name : String
  kind : MemberKind
  planned : Bool
  deriving DecidableEq, Repr

structure TypeEntry where
  name : String
  bases : List String
  members : List Declared
  deriving DecidableEq, Repr

def entry (name : String) (bases methods properties fields planned : List String) : TypeEntry :=
  ⟨name, bases,
    methods.map (⟨·, .method, false⟩) ++ properties.map (⟨·, .property, false⟩) ++
      fields.map (⟨·, .field, false⟩) ++ planned.map (⟨·, .method, true⟩)⟩

def types : List TypeEntry :=
  [
    entry "NObject" []
      [
        "Equals", "GetHashCode", "ToString", "GetType", "ReferenceEquals", "GenericEquals",
        "GenericToString", "GenericGetHashCode"]
      []
      []
      [],
    entry "NException" ["NObject"]
      ["ToString"]
      ["Message"]
      []
      [],
    entry "ArgumentException" ["NException"]
      []
      ["ParamName", "Message"]
      []
      [],
    entry "ArgumentNullException" ["ArgumentException"]
      []
      []
      []
      [],
    entry "ArgumentOutOfRangeException" ["ArgumentException"]
      []
      []
      []
      [],
    entry "IEnumerable" []
      ["GetEnumerator"]
      []
      []
      [],
    entry "ArrayEnumerable" ["NObject", "IEnumerable"]
      ["GetEnumerator"]
      []
      []
      [],
    entry "IDisposable" []
      ["Dispose"]
      []
      []
      [],
    entry "IEnumerator" ["IDisposable"]
      ["MoveNext"]
      ["Current"]
      []
      [],
    entry "Cursor" ["NObject", "IEnumerator"]
      ["MoveNext", "Dispose"]
      ["State", "Current"]
      []
      [],
    entry "ArrayEnumerator" ["Cursor"]
      []
      []
      []
      [],
    entry "BinaryWriter" ["NObject", "IDisposable"]
      ["Write", "WriteByte", "Flush", "Dispose"]
      []
      []
      [],
    entry "Console" ["NObject"]
      ["SetOut", "Write", "WriteLine"]
      ["Out"]
      []
      [],
    entry "Convert" ["NObject"]
      ["ToString", "ToInt32", "ToDouble", "ToBoolean"]
      []
      []
      [],
    entry "IFormatProvider" []
      ["GetFormat"]
      []
      []
      [],
    entry "CultureInfo" ["NObject", "IFormatProvider"]
      ["GetFormat", "ToString"]
      []
      ["InvariantCulture", "CurrentCulture"]
      [],
    entry "CursorState" []
      []
      []
      ["NotStarted", "Positioned", "Exhausted"]
      [],
    entry "DateTime" ["NObject"]
      [
        "Add", "AddTicks", "AddMilliseconds", "AddSeconds", "AddMinutes", "AddHours", "AddDays",
        "Subtract", "CompareTo", "Equals", "GetHashCode", "ToString", "ToFormattedString"]
      [
        "Now", "UtcNow", "Today", "Kind", "Ticks", "Year", "Month", "Day", "Hour", "Minute",
        "Second", "Millisecond", "DayOfWeek", "DayOfYear", "Date", "TimeOfDay"]
      ["MinValue", "MaxValue"]
      ["ToLocalTime", "ToUniversalTime", "Parse"],
    entry "DateTimeKind" []
      []
      []
      ["Local", "Unspecified", "Utc"]
      [],
    entry "DayOfWeek" []
      []
      []
      ["Sunday", "Monday", "Tuesday", "Wednesday", "Thursday", "Friday", "Saturday"]
      [],
    entry "Debug" ["NObject"]
      ["WriteLine"]
      []
      []
      [],
    entry "Dictionary" ["NObject", "IEnumerable"]
      ["Add", "TryGetValue", "ContainsKey", "ContainsValue", "Remove", "Clear", "GetEnumerator"]
      ["Count", "Keys", "Values"]
      []
      [],
    entry "DictionaryEnumerator" ["ArrayEnumerator"]
      []
      []
      []
      [],
    entry "Encoding" ["NObject"]
      ["GetBytes", "GetString", "Equals", "GetHashCode", "ToString"]
      ["WebName"]
      ["UTF8", "ASCII", "Unicode"]
      [],
    entry "Enumerable" []
      [
        "Empty", "ToList", "ToArray", "ToDictionary", "Cast", "Select", "SelectMany", "Where",
        "Concat", "Take", "Skip", "Distinct", "Reverse", "OrderBy", "OrderByDescending", "ThenBy",
        "ThenByDescending", "First", "FirstOrDefault", "Last", "Any", "All", "Contains", "Count",
        "Sum", "Max", "Min"]
      []
      []
      [],
    entry "Environment" []
      ["GetEnvironmentVariable"]
      ["NewLine", "TickCount", "ProcessorCount"]
      []
      [],
    entry "EventArgs" ["NObject"]
      []
      []
      ["Empty"]
      [],
    entry "EventHandler" ["NObject"]
      ["Invoke"]
      []
      []
      [],
    entry "FormatException" ["ArgumentException"]
      []
      []
      []
      [],
    entry "Group" ["NObject"]
      ["ToString"]
      ["Value", "Index", "Length", "Success", "Name"]
      []
      [],
    entry "GroupCollection" ["NObject", "IEnumerable"]
      ["ContainsKey", "GetEnumerator"]
      ["Count"]
      []
      [],
    entry "HashSet" ["NObject", "IEnumerable"]
      ["Add", "Contains", "Remove", "Clear", "GetEnumerator"]
      ["Count"]
      []
      [],
    entry "HashSetEnumerator" ["ArrayEnumerator"]
      []
      []
      []
      [],
    entry "INotifyPropertyChanged" []
      []
      []
      []
      [],
    entry "Interlocked" ["NObject"]
      ["CompareExchange", "Exchange", "Increment", "Decrement", "Add"]
      []
      []
      [],
    entry "InvalidOperationException" ["NException"]
      []
      []
      []
      [],
    entry "List" ["NObject", "IEnumerable"]
      [
        "Add", "AddRange", "Insert", "RemoveAt", "RemoveRange", "Remove", "RemoveAll", "Clear",
        "ToArray", "IndexOf", "Contains", "Reverse", "Sort", "GetEnumerator"]
      ["Count"]
      []
      [],
    entry "KeyCollection" ["List"]
      []
      []
      []
      [],
    entry "KeyNotFoundException" ["ArgumentException"]
      []
      []
      []
      [],
    entry "KeyValuePair" ["NObject"]
      ["Equals", "GetHashCode", "ToString"]
      []
      []
      [],
    entry "ListEnumerator" ["ArrayEnumerator"]
      []
      []
      []
      [],
    entry "Match" ["Group"]
      ["NextMatch", "Result"]
      ["Groups"]
      []
      [],
    entry "Stream" ["NObject", "IDisposable"]
      ["Write", "WriteByte", "Flush", "Dispose"]
      []
      []
      [],
    entry "MemoryStream" ["Stream"]
      ["Write", "ToArray"]
      ["Length", "Position"]
      []
      [],
    entry "MidpointRounding" []
      []
      []
      ["AwayFromZero", "ToEven"]
      [],
    entry "Monitor" ["NObject"]
      ["Enter", "Exit", "TryEnter", "Lock"]
      []
      []
      [],
    entry "NArray" []
      ["IndexOf", "ToEnumerable", "Resize"]
      []
      []
      [],
    entry "NBoolean" []
      ["Parse", "TryParse", "ToString", "GetHashCode"]
      []
      ["TrueString", "FalseString"]
      [],
    entry "NChar" []
      [
        "IsWhiteSpace", "IsLetter", "IsLetterOrDigit", "IsDigit", "IsUpper", "IsLower", "ToUpper",
        "ToLower"]
      []
      []
      [],
    entry "NEvent" []
      ["Add", "Remove", "ToMulticastFunction"]
      []
      []
      [],
    entry "NMath" ["NObject"]
      [
        "Round", "Truncate", "Log", "Log10", "Exp", "Pow", "Sqrt", "Abs", "Sign", "Floor",
        "Ceiling", "Min", "Max", "Cosh", "Sinh", "Tanh"]
      []
      ["E", "PI"]
      [],
    entry "NNumber" []
      [
        "Parse", "TryParse", "ToString", "GetHashCode", "IsInfinity", "IsPositiveInfinity",
        "IsNegativeInfinity", "IsNaN"]
      []
      []
      [],
    entry "NString" []
      [
        "IndexOf", "LastIndexOf", "IndexOfAny", "GetHashCode", "Replace", "Substring", "Remove",
        "Trim", "TrimStart", "TrimEnd", "ToUpperInvariant", "ToLowerInvariant", "StartsWith",
        "EndsWith", "Contains", "Split", "Compare", "CompareOrdinal", "Format", "IsNullOrEmpty",
        "IsNullOrWhiteSpace", "Join", "Concat", "FromChars"]
      []
      ["Empty"]
      [],
    entry "NotImplementedException" ["NException"]
      []
      []
      []
      [],
    entry "NotSupportedException" ["NException"]
      []
      []
      []
      [],
    entry "NumberFormatInfo" ["NObject", "IFormatProvider"]
      ["GetFormat"]
      []
      []
      [],
    entry "NumberStyles" []
      []
      []
      [
        "None_", "AllowLeadingWhite", "AllowTrailingWhite", "AllowLeadingSign", "AllowDecimalPoint",
        "AllowThousands", "AllowExponent", "AllowHexSpecifier", "Integer", "HexNumber", "Float",
        "Number", "Any"]
      [],
    entry "Nullable" ["NObject"]
      ["GetValueOrDefault", "Equals", "GetHashCode", "ToString"]
      ["HasValue"]
      []
      [],
    entry "OverflowException" ["NException"]
      []
      []
      []
      [],
    entry "PropertyChangedEventArgs" ["EventArgs"]
      []
      []
      []
      [],
    entry "Regex" ["NObject"]
      [
        "GetGroupNames", "GetGroupNumbers", "Match", "Matches", "IsMatch", "Replace", "Split",
        "Escape", "ToString"]
      ["Options"]
      []
      [],
    entry "RegexOptions" []
      []
      []
      [
        "None_", "IgnoreCase", "Multiline", "ExplicitCapture", "Compiled", "Singleline",
        "IgnorePatternWhitespace", "RightToLeft", "ECMAScript", "CultureInvariant"]
      [],
    entry "RuntimeOptions" []
      []
      []
      []
      [],
    entry "Stack" ["List"]
      ["Push", "Pop", "Peek"]
      []
      []
      [],
    entry "TextWriter" ["NObject", "IDisposable"]
      ["Write", "WriteLine", "Flush", "Dispose"]
      ["NewLine"]
      []
      [],
    entry "StreamWriter" ["TextWriter"]
      ["Flush"]
      []
      []
      [],
    entry "StringBuilder" ["NObject"]
      ["Append", "AppendLine", "AppendFormat", "Insert", "Clear", "ToString"]
      ["Length"]
      []
      [],
    entry "StringComparison" []
      []
      []
      [
        "CurrentCulture", "CurrentCultureIgnoreCase", "InvariantCulture",
        "InvariantCultureIgnoreCase", "Ordinal", "OrdinalIgnoreCase"]
      [],
    entry "TextReader" ["NObject", "IDisposable"]
      ["ReadLine", "ReadToEnd", "Dispose"]
      []
      []
      [],
    entry "StringReader" ["TextReader"]
      ["ReadLine", "ReadToEnd", "Peek", "Read"]
      []
      []
      [],
    entry "StringWriter" ["TextWriter"]
      ["GetStringBuilder", "ToString"]
      []
      []
      [],
    entry "Thread" ["NObject"]
      []
      ["CurrentThread"]
      []
      ["Start", "Join"],
    entry "ThreadPool" ["NObject"]
      []
      []
      []
      ["QueueUserWorkItem"],
    entry "TimeSpan" ["NObject"]
      [
        "FromTicks", "FromMilliseconds", "FromSeconds", "FromMinutes", "FromHours", "FromDays",
        "Add", "Subtract", "Negate", "Duration", "CompareTo", "Equals", "GetHashCode", "ToString"]
      [
        "Ticks", "Days", "Hours", "Minutes", "Seconds", "Milliseconds", "TotalDays", "TotalHours",
        "TotalMinutes", "TotalSeconds", "TotalMilliseconds"]
      [
        "TicksPerMillisecond", "TicksPerSecond", "TicksPerMinute", "TicksPerHour", "TicksPerDay",
        "Zero", "MaxValue", "MinValue"]
      [],
    entry "Type" ["NObject"]
      ["Equals", "GetHashCode", "ToString"]
      []
      []
      [],
    entry "ValueCollection" ["List"]
      []
      []
      []
      [],
    entry "WebClient" ["NObject"]
      []
      []
      []
      ["DownloadString"]]

def exported : List String :=
  [
    "ArgumentException", "ArgumentNullException", "ArgumentOutOfRangeException", "ArrayEnumerable",
    "ArrayEnumerator", "BinaryWriter", "Console", "Convert", "CultureInfo", "CursorState",
    "DateTime", "DateTimeKind", "DayOfWeek", "Debug", "Dictionary", "DictionaryEnumerator",
    "Encoding", "Enumerable", "Environment", "EventArgs", "EventHandler", "FormatException",
    "Group", "GroupCollection", "HashSet", "HashSetEnumerator", "IDisposable", "IEnumerable",
    "IEnumerator", "IFormatProvider", "INotifyPropertyChanged", "Interlocked",
    "InvalidOperationException", "KeyCollection", "KeyNotFoundException", "KeyValuePair", "List",
    "ListEnumerator", "Match", "MemoryStream", "MidpointRounding", "Monitor", "NArray", "NBoolean",
    "NChar", "NEvent", "NException", "NMath", "NNumber", "NObject", "NString",
    "NotImplementedException", "NotSupportedException", "NumberFormatInfo", "NumberStyles",
    "Nullable", "OverflowException", "PropertyChangedEventArgs", "Regex", "RegexOptions",
    "RuntimeOptions", "Stack", "Stream", "StreamWriter", "StringBuilder", "StringComparison",
    "StringReader", "StringWriter", "TextReader", "TextWriter", "Thread", "ThreadPool", "TimeSpan",
    "Type", "ValueCollection", "WebClient"]

end BaseLib.Surface

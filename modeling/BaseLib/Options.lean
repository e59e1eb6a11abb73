import BaseLib.Error
import BaseLib.Text.Case
import BaseLib.Text.Quoted

namespace BaseLib

structure Options where
  newLine : List Nat := Text.plain "\n"
  /-- Do rounding and truncation refuse numbers that are not finite? -/
  strictMath : Bool := false
  /-- Is a call of a member without an implementation logged? -/
  tracePlanned : Bool := false
  deriving DecidableEq, Repr, Inhabited

namespace Options

def lineEnds : List (String × List Nat) := [("lf", Text.plain "\n"), ("crlf", Text.plain "\r\n")]

def truths : List String := ["1", "true", "yes", "on"]

def falsehoods : List String := ["", "0", "false", "no", "off"]

def settingKey (raw : List Char) : String := String.ofList (Text.lower (Text.strip raw))

def readLineEnd (raw : Option (List Char)) : Except Failure (List Nat) :=
  match raw with
  | none => .ok (Text.plain "\n")
  | some raw =>
    match lineEnds.lookup (settingKey raw) with
    | some newLine => .ok newLine
    | none => .error (.badNewLine (String.ofList (Text.Quoted.encode (Text.codesOf raw))))

def readFlag (name : String) (raw : Option (List Char)) : Except Failure Bool :=
  let raw := raw.getD []
  let key := settingKey raw
  if truths.contains key then .ok true
  else if falsehoods.contains key then .ok false
  else .error (.badFlag name (String.ofList (Text.Quoted.encode (Text.codesOf (Text.lower (Text.strip raw))))))

def settings : List String := ["CORLIB_NEWLINE", "CORLIB_STRICT_MATH", "CORLIB_TRACE_UNPORTED"]

def ofEnvironment (setting? : String → Option (List Char)) : Except Failure Options := do
  let newLine ← readLineEnd (setting? "CORLIB_NEWLINE")
  let strictMath ← readFlag "CORLIB_STRICT_MATH" (setting? "CORLIB_STRICT_MATH")
  let tracePlanned ← readFlag "CORLIB_TRACE_UNPORTED" (setting? "CORLIB_TRACE_UNPORTED")
  pure ⟨newLine, strictMath, tracePlanned⟩

def flagText (b : Bool) : List Char := (if b then "True" else "False").toList

def literal (o : Options) : List Char :=
  "RuntimeOptions(new_line=".toList ++ Text.Quoted.encode o.newLine ++
    ", strict_math=".toList ++ flagText o.strictMath ++
    ", trace_unported=".toList ++ flagText o.tracePlanned ++ [')']

end Options

end BaseLib

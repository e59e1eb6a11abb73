import BaseLib.Bytes.Encoding
import BaseLib.Surface.Reference

namespace BaseLib.Command

structure Result where
  exit : Nat
  stdout : String
  stderr : String
  deriving DecidableEq, Repr, Inhabited

inductive Source
  | bytes (content : List Nat)
  | noSuchFile
  | directory
  | unreadable (reason : String)
  deriving DecidableEq, Repr

def usage : String :=
"corlib [OPTIONS] COMMAND [FILE]

Inspect the runtime's API surface.

Commands:
  surface            List every exported type and member
  check FILE         Check \"Type.Member\" references (one per line, '#' comments;
                     FILE may be - for stdin)

Options:
  --json             Emit machine-readable output (surface)
  --allow-unported   Do not fail on references to unported members
  --help             Show this help message
"

inductive Request
  | help
  | surface (json : Bool)
  | check (file : String) (allowPlanned : Bool)
  deriving DecidableEq, Repr

inductive Refusal
  | unknownFlag (arg : String)
  | unknownCommand (arg : String)
  | unexpected (arg : String)
  | missingCommand
  | missingFile
  deriving DecidableEq, Repr

def Refusal.message : Refusal → String
  | unknownFlag arg => "unknown flag '" ++ arg ++ "'"
  | unknownCommand arg => "unknown command '" ++ arg ++ "'"
  | unexpected arg => "unexpected argument '" ++ arg ++ "'"
  | missingCommand => "missing command"
  | missingFile => "missing file argument"

structure Seen where
  command : String := ""
  file : String := ""
  json : Bool := false
  allowPlanned : Bool := false
  deriving DecidableEq, Repr

def isFlag (arg : String) : Bool := "-".toList.isPrefixOf arg.toList && arg != "-"

def Seen.read (seen : Seen) : List String → Except Refusal Request
  | [] =>
    if seen.command = "" then .error .missingCommand
    else if seen.command = "surface" then .ok (.surface seen.json)
    else if seen.file = "" then .error .missingFile
    else .ok (.check seen.file seen.allowPlanned)
  | arg :: rest =>
    if arg = "--help" ∨ arg = "-h" then .ok .help
    else if arg = "--json" then { seen with json := true }.read rest
    else if arg = "--allow-unported" then { seen with allowPlanned := true }.read rest
    else if isFlag arg then .error (.unknownFlag arg)
    else if seen.command = "" then
      if arg = "surface" ∨ arg = "check" then { seen with command := arg }.read rest
      else .error (.unknownCommand arg)
    else if seen.command = "check" ∧ seen.file = "" then { seen with file := arg }.read rest
    else .error (.unexpected arg)

def Request.ofArgs (args : List String) : Except Refusal Request := Seen.read {} args

def jsonMember (m : Surface.Member) : String :=
  "  \x7b\n    \"type\": \"" ++ m.typeName ++ "\",\n    \"member\": \"" ++ m.name ++
    "\",\n    \"kind\": \"" ++ m.kind.name ++ "\",\n    \"status\": \"" ++ m.status ++ "\"\n  \x7d"

def surfaceJson (members : List Surface.Member) : String :=
  "[\n" ++ ",\n".intercalate (members.map jsonMember) ++ "\n]\n"

def surfaceText (members : List Surface.Member) : String :=
  String.join (members.map fun m => m.status ++ " " ++ m.reference ++ "\n")

def fails (allowPlanned : Bool) (status : String) : Bool :=
  status == "missing" || (status == "unported" && !allowPlanned)

def check (source : List Char) (allowPlanned : Bool) : Result :=
  let checked := (Surface.readReferences source).map fun ref => (Surface.checkReference ref, ref)
  ⟨if checked.any fun (status, _) => fails allowPlanned status then 1 else 0,
    String.join (checked.map fun (status, ref) => status ++ " " ++ String.ofList ref ++ "\n"), ""⟩

def complaint (exit : Nat) (text : String) : Result := ⟨exit, "", "corlib: " ++ text ++ "\n"⟩

def checkFile (file : String) (allowPlanned : Bool) (stdin : String) (files : String → Source) :
    Result :=
  if file = "-" then check stdin.toList allowPlanned
  else
    match files file with
    | .noSuchFile => complaint 1 (file ++ ": No such file or directory")
    | .directory => complaint 1 (file ++ ": [Errno 21] Is a directory: '" ++ file ++ "'")
    | .unreadable reason => complaint 1 (file ++ ": " ++ reason)
    | .bytes content =>
      if Encoding.validUtf8 0 content then check (Encoding.utf8.decode content) allowPlanned
      else complaint 1 (file ++ ": invalid utf-8")

def run (args : List String) (stdin : String) (files : String → Source) : Result :=
  match Request.ofArgs args with
  | .error refusal => complaint 2 refusal.message
  | .ok .help => ⟨0, usage, ""⟩
  | .ok (.surface json) =>
    ⟨0, if json then surfaceJson Surface.surface else surfaceText Surface.surface, ""⟩
  | .ok (.check file allowPlanned) => checkFile file allowPlanned stdin files

end BaseLib.Command

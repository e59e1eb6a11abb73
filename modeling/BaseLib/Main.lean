import BaseLib.Command

open BaseLib

def readSource (name : String) : IO Command.Source := do
  try
    let content ← IO.FS.readBinFile name
    return .bytes (content.toList.map UInt8.toNat)
  catch
    | .noFileOrDirectory _ _ _ => return .noSuchFile
    | .inappropriateType _ _ _ => return .directory
    | e => return .unreadable (toString e)

def main (args : List String) : IO UInt32 := do
  let stdin ←
    match Command.Request.ofArgs args with
    | .ok (.check "-" _) => (← IO.getStdin).readToEnd
    | _ => pure ""
  let source ←
    match Command.Request.ofArgs args with
    | .ok (.check file _) => if file = "-" then pure .noSuchFile else readSource file
    | _ => pure .noSuchFile
  let result := Command.run args stdin fun _ => source
  (← IO.getStdout).putStr result.stdout
  (← IO.getStderr).putStr result.stderr
  return UInt32.ofNat result.exit

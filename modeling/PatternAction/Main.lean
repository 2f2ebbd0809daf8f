import PatternAction.Command

namespace PatternAction

def readFile (name : String) : IO (Except FileProblem ByteArray) := do
  try return .ok (← IO.FS.readBinFile name)
  catch
    | .noFileOrDirectory .. => return .error .missing
    | .inappropriateType .. => return .error .directory
    | e => return .error (.other (toString e))

-- The status of a process is the exit code modulo 256.
def status (code : Int) : UInt32 := (code % 256).toNat.toUInt32

end PatternAction

open PatternAction in
def main (args : List String) : IO UInt32 := do
  match Request.ofArgs {} args with
  | .misuse =>
    IO.eprintln "usage: mini-awk [-F FS] [-v NAME=VALUE] [--dump-tokens] [--dump-ast] PROGRAM [INPUT]"
    return status failureCode
  | .version =>
    IO.print versionText
    return 0
  | .run o =>
    let files ← o.files.mapM fun name => return (name, ← readFile name)
    let outcome := o.execute fun name => (files.lookup name).getD (.error .missing)
    IO.print outcome.output
    if let some e := outcome.error then IO.eprintln ("mini-awk: " ++ e.message)
    return status outcome.exitCode

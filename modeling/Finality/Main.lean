import Finality.Replay.Program
import Std.Time.DateTime.Timestamp

/-! # Command line

Reads the files that a command line names, runs the program on them, and writes what it logs to the
standard error and what it prints to the standard output. -/

namespace Finality.Replay

/-- Fault of a number that the system gives, with or without a minus sign. -/
def ReadFault.ofNumber (code : UInt32) (words : String) : ReadFault :=
  match min code.toNat (4294967296 - code.toNat) with
  | 2 => .missing
  | 20 => .notDirectory
  | 21 => .isDirectory
  | 36 => .tooLong
  | number => .other number words

/-- Fault of reading a file. -/
def ReadFault.ofSystem : IO.Error → ReadFault
  | .noFileOrDirectory .. => .missing
  | .inappropriateType _ code words => .ofNumber code words
  | .permissionDenied _ code words => .ofNumber code words
  | .invalidArgument _ code words => .ofNumber code words
  | .resourceExhausted _ code words => .ofNumber code words
  | _ => .other 5 "Input/output error"

/-- Octets of a file. -/
def Path.load (p : Path) : IO (Except ReadFault (List UInt8)) := do
  try
    let octets ← IO.FS.readBinFile p.text
    return .ok octets.toList
  catch e => return .error (.ofSystem e)

/-- Writes what a run does, and answers with its status. -/
def Run.perform (r : Run) (now : Int) : IO UInt32 := do
  for n in r.shown do
    match r.style.line (.ofNotice now n) with
    | .ok line => IO.eprintln line
    | .error fault => IO.eprintln fault.message
  if let some fault := r.refusal then
    for line in Program.usage do
      IO.eprintln line
    IO.eprintln (Program.usageLine fault)
  IO.print r.output
  match r.ending with
  | .exit status => return status.toUInt32
  | .escaped escape =>
    IO.eprintln (Program.name ++ ": " ++ escape.message)
    return 1

end Finality.Replay

open Finality.Replay in
/-- Runs the program. -/
def main (arguments : List String) : IO UInt32 := do
  let contents ← (Program.needs arguments).mapM fun p => do return (p, ← p.load)
  let now ← Std.Time.Timestamp.now
  let files : Program.Files := fun p => (contents.lookup p).getD (.error .missing)
  (Program.run files arguments).perform now.toSecondsSinceUnixEpoch.toInt

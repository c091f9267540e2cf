import Finality.Json.Writer
import Finality.Log
import Finality.Replay.Options
import Finality.Replay.Path
import Finality.Replay.Recording
import Finality.Text.Character
import Finality.Tracker.ConfigFile
import Finality.Tracker.Summary

/-! # The program

A run of the program: a configuration is loaded, a recording is replayed, and what the tracker then
knows is printed, as a table or as JSON.  `Program.run` is a function of the command line and of what
reading a file yields; it answers with what is printed, what is logged, and how the program ends.

A configuration that is not valid, frames that are not understood and files that cannot be read end
the program with status 1 and nothing printed.  A few faults are not provided for; they end it
abnormally (`Ending.escaped`). -/

namespace Finality.Replay

/-- Faults that the program does not provide for. -/
inductive Escape where
  /-- The name of a file holds the character zero. -/
  | zeroCharacter
  /-- The configuration is not UTF-8, or holds a scalar without a value. -/
  | config (fault : Config.FileFault)
  /-- The frames hold an integer that is too long to be read. -/
  | overlongInteger (digits : Nat)
  /-- The report holds an integer that is too long to be written. -/
  | unwritable
deriving Repr

/-- Wording of a fault. -/
def Escape.message : Escape → String
  | .zeroCharacter => ReadFault.zeroCharacterMessage
  | .config fault => fault.message
  | .overlongInteger digits => Text.Numeral.overlongMessage digits
  | .unwritable => Text.Numeral.unwritableMessage

/-- How a run ends. -/
inductive Ending where
  | exit (status : Nat)
  | escaped (escape : Escape)
deriving Repr

/-- What a run does. -/
structure Run where
  ending : Ending
  /-- What is printed. -/
  output : String := ""
  /-- What is logged, in the order of logging. -/
  notices : List Notice := []
  /-- Why the command line is refused. -/
  refusal : Option UsageFault := none
  style : Log.Style := {}

namespace Program

/-- Name of the program. -/
def name : String := "telemetry-consensus"

/-- Last line that a refused command line is answered with.  The answer ends with a line break, and
the words that it quotes may hold more of them. -/
def usageLine (fault : UsageFault) : String :=
  Text.lastLine (name ++ ": error: " ++ fault.message ++ "\n")

/-- Forms of the command line. -/
def usage : List String := [
  "usage: telemetry-consensus [-h] [--config CONFIG] [--json] [-v] [--no-color]",
  "                           frames"]

/-- Help text. -/
def help : String := "\n".intercalate (usage ++ [
  "",
  "Replay telemetry feed frames through a finality tracker",
  "",
  "positional arguments:",
  "  frames           File with one JSON feed frame per line",
  "",
  "options:",
  "  -h, --help       show this help message and exit",
  "  --config CONFIG  Path to tracker YAML configuration",
  "  --json           Print the final snapshot as JSON",
  "  -v, --verbose    Enable debug logging",
  "  --no-color       Disable colored logging output",
  "",
  "Finality tracker replay CLI.",
  "",
  "Replay recorded telemetry feed frames through a finality tracker and print the",
  "resulting vote matrix.",
  "",
  "Usage::",
  "",
  "    python -m telemetry_consensus frames.jsonl",
  "    python -m telemetry_consensus frames.jsonl --config tracker.yaml --json",
  "",
  "Options:",
  "    FRAMES        File with one JSON feed frame per line (required)",
  "    --config      Path to tracker YAML configuration",
  "    --json        Print the final snapshot as camelCase JSON",
  "    -v            Enable debug logging",
  "    --no-color    Disable colored logging output",
  ""])

/-- Style of the log of a run. -/
def styleOf (o : Options) : Log.Style := { verbose := o.verbose, colored := !o.plain }

/-- Kind of a configuration fault that the program provides for. -/
def provided? : Config.FileFault → Option String
  | .yaml .malformed => some "YAMLError"
  | .issues _ => some "ValidationError"
  | _ => none

/-- Why there is no configuration: what to log, or what escapes. -/
abbrev ConfigFailure := Except Escape Notice

/-- What reading a file yields. -/
abbrev Files := Path → Except ReadFault (List UInt8)

/-- Loads the configuration of a run. -/
def loadConfig (files : Files) (o : Options) : Except ConfigFailure Config :=
  match o.config with
  | none => .ok .standard
  | some text =>
    let path := Path.ofText text
    match files path with
    | .error fault =>
      match fault.message? path with
      | some reason => .error (.ok (.configUnusable path.text reason))
      | none => .error (.error .zeroCharacter)
    | .ok octets =>
      match Config.ofOctets octets with
      | .ok cfg => .ok cfg
      | .error fault =>
        match provided? fault with
        | some reason => .error (.ok (.configUnusable path.text reason))
        | none => .error (.error (.config fault))

/-- What is printed about a snapshot. -/
def report? (o : Options) (s : Snapshot) : Option String :=
  (if o.json then some ((s.toJson true).render (some 2)) else s.summary?).map (· ++ "\n")

/-- Run that stops with status 1. -/
def stopped (style : Log.Style) (notices : List Notice) : Run :=
  { ending := .exit 1, notices, style }

/-- Run that ends with a fault that is not provided for. -/
def escaping (style : Log.Style) (escape : Escape) (notices : List Notice) : Run :=
  { ending := .escaped escape, notices, style }

/-- Replays a recording and reports on it. -/
def replayReport (o : Options) (cfg : Config) (path : String) (octets : List UInt8) : Run :=
  let style := styleOf o
  let outcome := replay cfg path {} octets
  match outcome.failure with
  | none =>
    let s := outcome.dispatcher.tracker.snapshot
    let notices := outcome.notices ++ [.replayed outcome.events s.items.length]
    match report? o s with
    | some output => { ending := .exit 0, output, notices, style }
    | none => escaping style .unwritable notices
  | some failure =>
    match failure, failure.fault? with
    | .overlongInteger digits, _ => escaping style (.overlongInteger digits) outcome.notices
    | _, some fault => stopped style (outcome.notices ++ [.aborted fault.message])
    | _, none => stopped style outcome.notices

/-- Run of a command line that was understood. -/
def runOptions (files : Files) (o : Options) : Run :=
  let style := styleOf o
  match loadConfig files o with
  | .error (.ok notice) => stopped style [notice]
  | .error (.error escape) => escaping style escape []
  | .ok cfg =>
    let path := Path.ofText o.frames
    match files path with
    | .error fault =>
      match fault.message? path with
      | some reason => stopped style [.framesUnreadable path.text reason]
      | none => escaping style .zeroCharacter []
    | .ok octets => replayReport o cfg path.text octets

/-- Run of a command line. -/
def run (files : Files) (arguments : List String) : Run :=
  match Request.ofArguments arguments with
  | .error fault => { ending := .exit 2, refusal := some fault }
  | .ok .help => { ending := .exit 0, output := help }
  | .ok (.run o) => runOptions files o

/-- Files that a run may read. -/
def needs (arguments : List String) : List Path :=
  match Request.ofArguments arguments with
  | .ok (.run o) => (o.config.toList ++ [o.frames]).map Path.ofText
  | _ => []

end Program

/-- Notices that are written. -/
def Run.shown (r : Run) : List Notice := r.notices.filter fun n => r.style.shows n.level

end Finality.Replay

import Finality.Text.Character
import Finality.Text.Quoted

/-! # The command line

The words of a command line, up to the options that they choose.

* A word that starts with a hyphen is an **option**: a full spelling, the start of one long spelling
  only, or a letter with what follows it.  A value is part of the word, behind an equals sign, or
  the next word.  Negative numbers, words with a blank and the hyphen alone are no options unless
  they fit one.
* Letters can be joined behind one hyphen, as long as they take no value, also behind the equals sign
  of a letter.  What is no letter of an option is refused as a value of the option before it.
* A value `--` that is part of a word counts as nothing: the option has no value then.
* The first word `--` ends the options; it counts as nothing where the file is still wanting.
* Every other word is a name of a file, of which there is one.

Words are read from left to right, and the request for help ends the reading; but a word that starts
several spellings is refused before any word is read. -/

namespace Finality.Replay

/-- Options by meaning. -/
inductive Flag where
  | help
  | config
  | json
  | verbose
  | plain
deriving DecidableEq, Repr

namespace Flag

/-- Spellings of all options. -/
def spellings : List (String × Flag) := [
  ("-h", .help), ("--help", .help), ("--config", .config), ("--json", .json), ("-v", .verbose),
  ("--verbose", .verbose), ("--no-color", .plain)]

/-- Option of a full spelling. -/
def ofSpelling? (s : String) : Option Flag := spellings.lookup s

/-- Spellings of an option, as messages show them. -/
def title (f : Flag) : String :=
  "/".intercalate ((spellings.filter fun s => s.2 == f).map (·.1))

/-- Whether an option takes a value. -/
def takesValue : Flag → Bool
  | .config => true
  | _ => false

end Flag

/-- What a run is asked to do. -/
structure Options where
  /-- File with the frames. -/
  frames : String
  /-- File with the configuration. -/
  config : Option String := none
  json : Bool := false
  verbose : Bool := false
  /-- Whether log lines have no colours. -/
  plain : Bool := false
deriving DecidableEq, Repr

/-- Why a command line is refused. -/
inductive UsageFault where
  | ambiguous (word : String) (matching : List String)
  | framesMissing
  | valueMissing (flag : Flag)
  | valueRefused (flag : Flag) (value : String)
  | unrecognized (words : List String)
deriving DecidableEq, Repr

/-- Wording of a refusal. -/
def UsageFault.message : UsageFault → String
  | .ambiguous word matching =>
    "ambiguous option: " ++ word ++ " could match " ++ ", ".intercalate matching
  | .framesMissing => "the following arguments are required: frames"
  | .valueMissing flag => "argument " ++ flag.title ++ ": expected one argument"
  | .valueRefused flag value =>
    "argument " ++ flag.title ++ ": ignored explicit argument " ++ Text.quoted value
  | .unrecognized words => "unrecognized arguments: " ++ " ".intercalate words

/-- A word of a command line. -/
inductive Word where
  | name (text : String)
  /-- The word that ends the options. -/
  | separator
  /-- Option, by a long spelling or a letter, with the value that is part of the word. -/
  | option (flag : Flag) (long : Bool) (value : Option (List Char))
  /-- Option that is not known. -/
  | unknown (text : String)
deriving DecidableEq, Repr

namespace Word

/-- Text before and behind the first equals sign. -/
def splitEquals (cs : List Char) : List Char × Option (List Char) :=
  (cs.takeWhile (· != '='), (cs.dropWhile (· != '=')).tail?)

/-- Negative decimal numbers. -/
def isNegativeNumber : List Char → Bool
  | '-' :: cs =>
    let whole := cs.takeWhile Text.isDigit
    match cs.dropWhile Text.isDigit with
    | [] => !whole.isEmpty
    | ['\n'] => !whole.isEmpty
    | '.' :: ds =>
      let rest := ds.dropWhile Text.isDigit
      rest.length < ds.length && (rest.isEmpty || rest == ['\n'])
    | _ => false
  | _ => false

/-- Options that a word may mean which is no full spelling, each with its spelling. -/
def candidates (cs : List Char) : List (String × Word) :=
  if ['-', '-'].isPrefixOf cs then
    let (stem, value) := splitEquals cs
    (Flag.spellings.filter fun s => stem.isPrefixOf s.1.toList).map fun s =>
      (s.1, .option s.2 true value)
  else
    (Flag.spellings.filter fun s => s.1.toList == cs.take 2).map fun s =>
      (s.1, .option s.2 false (some (cs.drop 2)))

/-- Reads a word in front of the separator. -/
def read (text : String) : Except UsageFault Word :=
  let cs := text.toList
  let isLong := ['-', '-'].isPrefixOf cs
  if cs.head? != some '-' then .ok (.name text)
  else
    match Flag.ofSpelling? text with
    | some flag => .ok (.option flag isLong none)
    | none =>
      let (stem, value) := splitEquals cs
      match cs.length, Flag.ofSpelling? (String.ofList stem), value with
      | 1, _, _ => .ok (.name text)
      | _, some flag, some value => .ok (.option flag isLong (some value))
      | _, _, _ =>
        match candidates cs with
        | [(_, word)] => .ok word
        | [] =>
          if isNegativeNumber cs || cs.contains ' ' then .ok (.name text) else .ok (.unknown text)
        | several => .error (.ambiguous text (several.map (·.1)))

/-- Reads all words; behind the separator they are names. -/
def readAll : List String → Except UsageFault (List Word)
  | [] => .ok []
  | text :: texts =>
    if text == "--" then .ok (.separator :: texts.map .name)
    else do
      let word ← read text
      let words ← readAll texts
      .ok (word :: words)

/-- Word as it was written, for words that are no options. -/
def text : Word → String
  | .name text => text
  | .separator => "--"
  | .unknown text => text
  | .option flag .. => flag.title

/-- Options and unknown options. -/
def isOption : Word → Bool
  | .option .. => true
  | .unknown _ => true
  | _ => false

end Word

/-- Options that joined letters stand for, of which the first has been read. -/
def letters (flag : Flag) : List Char → Except UsageFault (List Flag)
  | [] => .error (.valueRefused flag "")
  | c :: rest =>
    match Flag.ofSpelling? (String.ofList ['-', c]), rest with
    | none, _ => .error (.valueRefused flag (String.ofList (c :: rest)))
    | some next, [] => .ok [flag, next]
    | some next, x :: more => do
      let flags ← letters next (x :: more)
      .ok (flag :: flags)

/-- What has been read of a command line. -/
structure Parsed where
  help : Bool := false
  frames : Option String := none
  config : Option String := none
  json : Bool := false
  verbose : Bool := false
  plain : Bool := false
  /-- Words that have no meaning. -/
  others : List String := []
deriving DecidableEq, Repr

namespace Parsed

/-- Notes an option without a value. -/
def note (p : Parsed) : Flag → Parsed
  | .help => { p with help := true }
  | .json => { p with json := true }
  | .verbose => { p with verbose := true }
  | .plain => { p with plain := true }
  | .config => p

/-- Notes the value of an option that is part of its word. -/
def configure (p : Parsed) (value : String) : Parsed :=
  { p with config := if value == "--" then none else some value }

/-- Adds words that have no meaning. -/
def leave (p : Parsed) (texts : List String) : Parsed := { p with others := p.others ++ texts }

/-- Reads the words behind the last option: names, and perhaps a separator.  The first name is the
file, if it is still wanting, and a separator beside it counts as nothing. -/
def readNames (p : Parsed) (words : List Word) : Parsed :=
  let texts := words.map Word.text
  match p.frames, words with
  | none, .separator :: .name text :: _ => { p with frames := some text }.leave (texts.drop 2)
  | none, .name text :: .separator :: _ => { p with frames := some text }.leave (texts.drop 2)
  | none, .name text :: _ => { p with frames := some text }.leave (texts.drop 1)
  | _, _ => p.leave texts

/-- Reads words.  The request for help ends the reading. -/
def readWords (p : Parsed) : List Word → Except UsageFault Parsed
  | [] => .ok p
  | word :: words =>
    if !(word :: words).any Word.isOption then .ok (p.readNames (word :: words))
    else
      match word with
      | .option flag _ none =>
        if flag.takesValue then
          match words with
          | .name value :: words => { p with config := some value }.readWords words
          | _ => .error (.valueMissing flag)
        else if flag == .help then .ok (p.note .help)
        else (p.note flag).readWords words
      | .option flag long (some value) =>
        if flag.takesValue then
          (p.configure (String.ofList value)).readWords words
        else if long then .error (.valueRefused flag (String.ofList value))
        else
          match letters flag value with
          | .error fault => .error fault
          | .ok flags =>
            let p := flags.foldl note p
            if p.help then .ok p else p.readWords words
      | .unknown text => (p.leave [text]).readWords words
      | word =>
        if p.frames.isNone then { p with frames := some word.text }.readWords words
        else (p.leave [word.text]).readWords words

end Parsed

/-- What a command line asks for. -/
inductive Request where
  | help
  | run (options : Options)
deriving DecidableEq, Repr

/-- Reads a command line. -/
def Request.ofArguments (arguments : List String) : Except UsageFault Request := do
  let words ← Word.readAll arguments
  let p ← ({} : Parsed).readWords words
  if p.help then .ok .help
  else
    match p.frames, p.others with
    | none, _ => .error .framesMissing
    | some frames, [] =>
      .ok (.run { frames, config := p.config, json := p.json, verbose := p.verbose, plain := p.plain })
    | some _, others => .error (.unrecognized others)

end Finality.Replay

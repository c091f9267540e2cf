import Finality.Text.Quoted

/-! # Paths

The name of a file: the names of directories and of the file itself, parted by slashes.  Empty parts
and single dots do not count, so there is one normal form.  Two slashes in front are kept apart from
one.

`ReadFault` tells why the file of a path cannot be read. -/

namespace Finality.Replay

/-- A path in normal form. -/
structure Path where
  /-- What it starts from: nothing, one slash or two. -/
  root : String
  parts : List String
deriving DecidableEq, Repr

namespace Path

/-- Slashes that a path starts with. -/
def rootOf : List Char → String
  | ['/', '/'] => "//"
  | '/' :: '/' :: c :: _ => if c == '/' then "/" else "//"
  | '/' :: _ => "/"
  | _ => ""

/-- Parts that count. -/
def isPart (part : List Char) : Bool := !(part.isEmpty || part == ['.'])

/-- Path of a text. -/
def ofText (s : String) : Path where
  root := rootOf s.toList
  parts := ((s.toList.splitOn '/').filter isPart).map String.ofList

/-- Text of a path. -/
def text (p : Path) : String :=
  if p.root.isEmpty && p.parts.isEmpty then "." else p.root ++ "/".intercalate p.parts

end Path

/-- Why a path cannot be read. -/
inductive ReadFault where
  | missing
  | notDirectory
  | isDirectory
  | tooLong
  /-- Any other fault that the system reports, by its number and wording. -/
  | other (number : Nat) (words : String)
  /-- The system cannot even be asked. -/
  | zeroCharacter
deriving DecidableEq, Repr

namespace ReadFault

/-- Number and wording of a fault, if the system reports it. -/
def description? : ReadFault → Option (Nat × String)
  | .missing => some (2, "No such file or directory")
  | .notDirectory => some (20, "Not a directory")
  | .isDirectory => some (21, "Is a directory")
  | .tooLong => some (36, "File name too long")
  | .other number words => some (number, words)
  | .zeroCharacter => none

/-- Wording of a fault that the system reports about a path. -/
def message? (f : ReadFault) (p : Path) : Option String :=
  f.description?.map fun (number, words) =>
    "[Errno " ++ toString number ++ "] " ++ words ++ ": " ++ Text.quoted p.text

/-- Wording of a path that the system cannot be asked about. -/
def zeroCharacterMessage : String := "embedded null byte"

end ReadFault

end Finality.Replay

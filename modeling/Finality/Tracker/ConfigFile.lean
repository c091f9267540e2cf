import Finality.Tracker.Config
import Finality.Yaml.Document

/-! # Configuration files

A configuration is kept in a YAML document whose root is a mapping.  A document that says nothing
(`Document.isVoid`) is the default configuration. -/

namespace Finality.Config

open Schema (Step Keyed Issue)

/-- Setting of a member of the root. -/
def Setting.ofMember : Yaml.Member → Setting
  | .scalar .null => .null
  | .scalar (.int n) => .int n
  | .scalar (.bool b) => .bool b
  | _ => .other

/-- Numbers that can stand as such in the place of an issue: those of 64 bits with a sign. -/
def isPlaceNumber (n : Int) : Bool := -9223372036854775808 ≤ n && n ≤ 9223372036854775807

/-- Key of a member of the root. -/
def keyOf : Yaml.Scalar → Schema.Key
  | .text s => .name s
  | .int n => .foreign (if isPlaceNumber n then .index n else .name (Yaml.Scalar.integerText n))
  | .bool b => .foreign (.index (if b then 1 else 0))
  | s => .foreign (.name s.display)

/-- Configuration of a document. -/
def ofDocument (d : Yaml.Document) : Except (List Issue) Config :=
  if d.isVoid then .ok .standard
  else
    match d with
    | .mapping entries => ofFields (entries.map fun e => (keyOf e.1, .ofMember e.2))
    | _ => .error [.notObject title]

/-- Why a file does not yield a configuration. -/
inductive FileFault where
  | yaml (fault : Yaml.Fault)
  | issues (issues : List Issue)
deriving Repr

/-- Wording of a fault, where it has one. -/
def FileFault.message : FileFault → String
  | .yaml fault => fault.message
  | .issues _ => ""

/-- Configuration of a text as far as it can be read. -/
def ofSource (source : Yaml.Source) : Except FileFault Config := do
  match ← (Yaml.Document.ofSource source).mapError .yaml with
  | none => .ok .standard
  | some d => (ofDocument d).mapError .issues

/-- Configuration of a text. -/
def ofText (cs : List Char) : Except FileFault Config := ofSource (.ofText cs)

/-- Configuration of the octets of a file. -/
def ofOctets (bs : List UInt8) : Except FileFault Config := ofSource (.ofOctets bs)

end Finality.Config

import Finality.Encoding.Utf8
import Finality.Text.Quoted

/-! # Text files

Reading the characters of a UTF-8 file bit by bit.  The file is read in chunks of `chunkSize` octets
or more, and a chunk is decoded as a whole as soon as one of its characters is asked for.  So a file
that does not decode yields its characters up to the chunk with the fault, and the octets to blame
are counted from the start of that chunk, or of the character that goes on in it.

Line ends come in one form, the line feed. -/

namespace Finality.Encoding

/-- Octets that do not decode, with the fault in them. -/
structure Undecodable where
  octets : List UInt8
  fault : Fault
deriving DecidableEq, Repr

/-- Wording of the octets to blame: one by its value, several by their places. -/
def Undecodable.blamed (u : Undecodable) : String :=
  if u.fault.length == 1 then
    let octet := ((u.octets[u.fault.start]?).getD 0).toNat
    "byte 0x" ++ String.ofList (Text.hexDigits 2 octet) ++ " in position " ++ toString u.fault.start
  else
    "bytes in position " ++ toString u.fault.start ++ "-"
      ++ toString (u.fault.start + u.fault.length - 1)

/-- Wording of octets that do not decode. -/
def Undecodable.message (u : Undecodable) : String :=
  "'utf-8' codec can't decode " ++ u.blamed ++ ": " ++ u.fault.reason.message

/-- Text with all line ends in one form. -/
def unifyLineEnds : List Char → List Char
  | '\r' :: '\n' :: rest => '\n' :: unifyLineEnds rest
  | '\r' :: rest => '\n' :: unifyLineEnds rest
  | c :: rest => c :: unifyLineEnds rest
  | [] => []

/-- A text file that has been read in part. -/
structure TextFile where
  /-- Octets that have not been read. -/
  octets : List UInt8
  /-- Octets of a character that goes on in the next chunk. -/
  begun : List UInt8 := []
  /-- Whether a carriage return was read that the next chunk may make half of a line end. -/
  returned : Bool := false
  /-- Characters that have been decoded and not asked for. -/
  spare : List Char := []
  /-- Number of octets of the last chunk. -/
  lastOctets : Nat := 0
  /-- Number of characters of the last chunk. -/
  lastSize : Nat := 0
deriving DecidableEq, Repr

namespace TextFile

/-- Least size of a chunk, in octets. -/
def chunkSize : Nat := 8192

/-- Whether octets that are the last of a chunk may go on in the next one.  A surrogate, which is no
character, is only refused when it is whole. -/
def goesOn (fault : Fault) : List UInt8 → Bool
  | [a, b] => fault.reason == .unexpectedEnd || (a == 0xED && 0xA0 ≤ b && b ≤ 0xBF)
  | _ => fault.reason == .unexpectedEnd

/-- Characters of octets, and the octets of a character that is only begun.  At the end of the file
every character must be whole. -/
def decode (final : Bool) (bs : List UInt8) : Except Undecodable (List Char × List UInt8) :=
  match Utf8.decode bs with
  | .ok cs => .ok (cs, [])
  | .error fault =>
    if !final && goesOn fault (bs.drop fault.start) then
      match Utf8.decode (bs.take fault.start) with
      | .ok cs => .ok (cs, bs.drop fault.start)
      | .error fault => .error ⟨bs, fault⟩
    else .error ⟨bs, fault⟩

/-- Reads the next chunk, which has room for some number of characters of the size of the last ones.
Answers `none` at the end of the file. -/
def readChunk (wanted : Nat) (f : TextFile) : Except Undecodable (Option TextFile) := do
  let size := max chunkSize (f.lastOctets * wanted / max f.lastSize 1)
  let chunk := f.octets.take size
  let final := chunk.isEmpty
  let (cs, begun) ← decode final (f.begun ++ chunk)
  let joined := f.returned && (final || !cs.isEmpty)
  let cs := if joined then '\r' :: cs else cs
  let held := !final && cs.getLast? == some '\r'
  let cs := unifyLineEnds (if held then cs.dropLast else cs)
  if final && cs.isEmpty then .ok none
  else
    .ok (some {
      octets := f.octets.drop size
      begun
      returned := held || (f.returned && !joined)
      spare := f.spare ++ cs
      lastOctets := if cs.isEmpty then 0 else chunk.length
      lastSize := cs.length })

/-- Reads some number of characters, or all to the end of the file if they are fewer.  The first
argument bounds the number of chunks. -/
def readUpTo : Nat → Nat → TextFile → Except Undecodable (List Char × TextFile)
  | 0, wanted, f => .ok (f.spare.take wanted, { f with spare := f.spare.drop wanted })
  | fuel + 1, wanted, f => do
    let cs := f.spare.take wanted
    let f := { f with spare := f.spare.drop wanted }
    if cs.length = wanted then .ok (cs, f)
    else
      match ← f.readChunk (wanted - cs.length) with
      | none => .ok (cs, f)
      | some f => do
        let (more, f) ← readUpTo fuel (wanted - cs.length) f
        .ok (cs ++ more, f)

/-- Reads some number of characters, or all to the end of the file if they are fewer. -/
def read (wanted : Nat) (f : TextFile) : Except Undecodable (List Char × TextFile) :=
  readUpTo (f.octets.length + 2) wanted f

end TextFile

end Finality.Encoding

import Magnetofluid.Files.Content
import Magnetofluid.Value.Basic

/-!
# Archives as bytes

An archive of arrays is stored as an uncompressed ZIP file with one member for each array. A member is the array in
the NPY format: a line that tells the type and the shape of the numbers, and the numbers with their lowest byte first.
-/

namespace Magnetofluid.Files.Archive

/-- The lowest bytes of a number, the lowest first. -/
def littleEndian (count n : Nat) : List UInt8 :=
  (List.range count).map fun i => UInt8.ofNat (n >>> (8 * i))

def bytes (s : String) : List UInt8 := s.toUTF8.toList

/-! ## Arrays -/

/-- An integer in eight bytes, a negative one by its complement. -/
def integerBytes (i : Int) : List UInt8 := littleEndian 8 (i % 0x10000000000000000).toNat

def realBytes (x : Float) : List UInt8 := littleEndian 8 x.toBits.toNat

/-- A shape as the format writes it. -/
def shapeText : List Nat → String
  | [n] => "(" ++ toString n ++ ",)"
  | shape => "(" ++ Text.joined ", " (shape.map toString) ++ ")"

/-- The bytes by which the NPY format is known. -/
def mark : List UInt8 := [0x93, 0x4E, 0x55, 0x4D, 0x50, 0x59]

/-- An array in the NPY format, version 1.0. The line before the numbers is filled up with blanks, so that the numbers begin at a
multiple of 64 bytes. -/
def member (a : NamedArray Float) : List UInt8 :=
  let (kind, numbers) := match a.numbers with
    | .integers is => ("<i8", is.flatMap integerBytes)
    | .reals xs => ("<f8", xs.flatMap realBytes)
  let description := "\x7b'descr': '" ++ kind ++ "', 'fortran_order': False, 'shape': " ++ shapeText a.shape ++ ", \x7d"
  let size := 64 * ((10 + description.length + 1 + 63) / 64) - 10
  let line := description ++ .ofList (List.replicate (size - 1 - description.length) ' ') ++ "\n"
  mark ++ [1, 0] ++ littleEndian 2 size ++ bytes line ++ numbers

/-! ## Checksums -/

def crcBit (c : UInt32) : UInt32 := if c &&& 1 = 1 then (0xEDB88320 : UInt32) ^^^ (c >>> 1) else c >>> 1

def crcByte (c : UInt32) (b : UInt8) : UInt32 :=
  (List.range 8).foldl (fun c _ => crcBit c) (c ^^^ b.toUInt32)

/-- The cyclic redundancy check of bytes. -/
def crc (bs : List UInt8) : UInt32 := bs.foldl crcByte 0xFFFFFFFF ^^^ 0xFFFFFFFF

/-! ## Files -/

/-- What both headers of a member say: version, no flags, no compression, the first day of 1980, checksum, sizes and
the length of the name. -/
def memberFields (name : String) (content : List UInt8) : List UInt8 :=
  littleEndian 2 20 ++ littleEndian 2 0 ++ littleEndian 2 0 ++ littleEndian 2 0 ++ littleEndian 2 0x21 ++
    littleEndian 4 (crc content).toNat ++ littleEndian 4 content.length ++ littleEndian 4 content.length ++
    littleEndian 2 (bytes name).length ++ littleEndian 2 0

/-- A member with its header. -/
def entry (name : String) (content : List UInt8) : List UInt8 :=
  littleEndian 4 0x04034B50 ++ memberFields name content ++ bytes name ++ content

/-- The line of a member in the directory of the file. -/
def directoryLine (name : String) (content : List UInt8) (offset : Nat) : List UInt8 :=
  littleEndian 4 0x02014B50 ++ littleEndian 2 20 ++ memberFields name content ++ littleEndian 6 0 ++
    littleEndian 4 0 ++ littleEndian 4 offset ++ bytes name

/-- The members of a file and the lines of its directory, from an offset on. -/
def sections (offset : Nat) : List (String × List UInt8) → List UInt8 × List UInt8
  | [] => ([], [])
  | (name, content) :: rest =>
    let first := entry name content
    let (entries, lines) := sections (offset + first.length) rest
    (first ++ entries, directoryLine name content offset ++ lines)

def encode (arrays : List (NamedArray Float)) : List UInt8 :=
  let members := arrays.map fun a => (a.name ++ ".npy", member a)
  let (entries, lines) := sections 0 members
  entries ++ lines ++ littleEndian 4 0x06054B50 ++ littleEndian 4 0 ++
    littleEndian 2 members.length ++ littleEndian 2 members.length ++
    littleEndian 4 lines.length ++ littleEndian 4 entries.length ++ littleEndian 2 0

end Magnetofluid.Files.Archive

import GameConsole.Fat.Volume
import GameConsole.Text.Uppercase
import GameConsole.Text.Utf16

/-! Directories. An entry has a short name of eight and three bytes, and may have a long name in the
records before it: these hold thirteen units of text each, the last part first, and are numbered
and tied to the entry by a checksum of its short name. -/

namespace GameConsole.Fat

structure Entry where
  shortName : List Char
  /-- Empty if the entry has only a short name. -/
  longName : List UInt16
  isDirectory : Bool
  firstCluster : Option UInt32
  size : Nat

namespace Entry

/-- A name is asked for without regard to case, as the long name or as the short one. -/
def isCalled (e : Entry) (name : String) : Bool :=
  let wanted := Text.foldCase name.toList
  let isLong := !e.longName.isEmpty && Text.foldCase (Text.ofUtf16 e.longName) = wanted
  isLong || Text.foldCase e.shortName = wanted

end Entry

/-- One of the records of 32 bytes that make up a directory. -/
structure Record where
  bytes : ByteArray

namespace Record

def byte (r : Record) (i : Nat) : UInt8 := Bytes.byteAt r.bytes i

def attributes (r : Record) : UInt8 := r.byte 11

/-- A part of a long name. -/
def isNamePart (r : Record) : Bool := r.attributes &&& 0x0F = 0x0F

def isEnd (r : Record) : Bool := r.byte 0 = 0x00

def isDeleted (r : Record) : Bool := r.byte 0 = 0xE5

def isVolumeLabel (r : Record) : Bool := !r.isNamePart && r.attributes &&& 0x08 ≠ 0

/-- The text units of a part of a long name. -/
def units (r : Record) : List UInt16 :=
  [1, 3, 5, 7, 9, 14, 16, 18, 20, 22, 24, 28, 30].map fun i => (Bytes.halfAt r.bytes i).toUInt16

/-- The checksum that the parts of a long name carry. -/
def checksum (r : Record) : UInt8 :=
  (List.range 11).foldl (fun sum i => (sum <<< 7) + (sum >>> 1) + r.byte i) 0

/-- Bytes up to the last one that is not blank, from the `count` bytes at `start`. -/
private def trimmed (r : Record) (start count : Nat) : List UInt8 :=
  (((List.range count).map fun i => r.byte (start + i)).reverse.dropWhile (· = 0x20)).reverse

/-- Bytes outside of ASCII stand for no known character. The first byte of a name is written as
`0x05` where it would mark the entry as deleted. -/
def shortName (r : Record) : List Char :=
  let base := r.trimmed 0 8
  let suffix := r.trimmed 8 3
  let name := if suffix.isEmpty then base else base ++ [0x2E] ++ suffix
  let name := match name with
    | 0x05 :: rest => 0xE5 :: rest
    | _ => name
  name.map fun b => if b ≤ 0x7F then Char.ofNat b.toNat else Char.ofNat 0xFFFD

def entry (r : Record) (kind : Kind) (longName : List UInt16) : Entry :=
  let high := if kind = .fat32 then Bytes.halfAt r.bytes 20 else 0
  let cluster := high * 0x10000 + Bytes.halfAt r.bytes 26
  { shortName := r.shortName
    longName := longName
    isDirectory := r.attributes &&& 0x10 ≠ 0
    firstCluster := if cluster = 0 then none else some cluster
    size := (Bytes.wordAt r.bytes 28).toNat }

end Record

/-- The parts of a long name that have been read: the number of the latest one, the checksum, and
the units of all of them. Number zero stands for no part at all. -/
structure LongName where
  number : Nat := 0
  checksum : UInt8 := 0
  units : List UInt16 := []

namespace LongName

/-- Reads one more part. The first one to come has the highest number and is marked; each of the
others goes down by one. A part out of turn spoils the name. -/
def add (n : LongName) (r : Record) : LongName :=
  let order := r.byte 0
  let number := (order &&& 0x1F).toNat
  let checksum := r.byte 13
  if number = 0 then {}
  else if order &&& 0x40 ≠ 0 then { number, checksum, units := r.units }
  else if n.number = 0 ∨ number + 1 ≠ n.number ∨ checksum ≠ n.checksum then {}
  else { n with number, units := r.units ++ n.units }

/-- The name of the entry that follows the parts, without the filling at its end. -/
def forEntry (n : LongName) (r : Record) : List UInt16 :=
  if n.number = 1 ∧ n.checksum = r.checksum then
    (n.units.reverse.dropWhile fun u => u = 0x0000 ∨ u = 0xFFFF).reverse
  else []

end LongName

/-- Looks for a name among the records from offset `start` on. A directory may end without an end
mark, and it also ends where its chain cannot be followed beyond the end of the table. -/
def findEntry (kind : Kind) (content : Volume.Content) (name : String) :
    Nat → Nat → LongName → Except Fault Entry
  | 0, _, _ => .error .notFound
  | records + 1, start, long =>
    let left := content.bytes.size - start
    if left < 32 then
      if content.fault? = some .badPosition then .error .badPosition
      else .error (if left < 11 then .notFound else .shortRead)
    else
      let r : Record := ⟨content.bytes.extract start (start + 32)⟩
      let next := findEntry kind content name records (start + 32)
      if r.isEnd then .error .notFound
      else if r.isDeleted || r.isVolumeLabel then next {}
      else if r.isNamePart then next (long.add r)
      else
        let e := r.entry kind (long.forEntry r)
        if e.isCalled name then .ok e else next {}

/-- Looks for a name in a directory. -/
def find (v : Volume) (directory : Volume.Content) (name : String) : Except Fault Entry :=
  findEntry v.boot.kind directory name (directory.bytes.size / 32 + 1) 0 {}

/-- The file at a path of names, from a directory on. -/
def openFrom (v : Volume) (directory : Volume.Content) :
    String → List String → Except Fault ByteArray
  | name, [] => do
    let e ← find v directory name
    if e.isDirectory then throw .isDirectory
    v.readFile e.firstCluster e.size
  | name, next :: rest => do
    let e ← find v directory name
    if !e.isDirectory then throw .notDirectory
    let inner := match e.firstCluster with
      | some cluster => v.readDirectory cluster
      | none => v.readRoot
    openFrom v inner next rest

/-- The names of a path. Slashes at the ends and next to each other do not count. -/
def pathNames (path : String) : List String :=
  (path.splitOn "/").filter fun name => !name.isEmpty

/-- Reads the file at a path of a disk image. -/
def readPath (image : ByteArray) (path : String) : Except Fault ByteArray := do
  let v ← Volume.mount image
  match pathNames path with
  | [] => openFrom v v.readRoot "" []
  | name :: rest => openFrom v v.readRoot name rest

end GameConsole.Fat

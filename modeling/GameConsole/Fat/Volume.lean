import GameConsole.Bytes
import GameConsole.Fat.Fault

/-! The layout of a FAT volume, read from its boot sector and checked: reserved sectors, the file
allocation tables, the root directory, and clusters of sectors from number two on. Sectors and
clusters are counted in words, places in the image in natural numbers. -/

namespace GameConsole.Fat

/-- The width of the entries of the table. -/
inductive Kind
  | fat12
  | fat16
  | fat32
deriving DecidableEq

/-- The number of clusters decides the kind of a volume. -/
def Kind.ofClusters (n : UInt32) : Kind :=
  if n < 4085 then .fat12 else if n < 65525 then .fat16 else .fat32

structure BootSector where
  sectorSize : UInt32
  clusterSectors : UInt32
  reserved : UInt32
  tables : UInt32
  rootEntries : UInt32
  total16 : UInt32
  total32 : UInt32
  table16 : UInt32
  /-- The fields from here on count only where `table16` is zero. -/
  table32 : UInt32
  flags : UInt32
  version : UInt32
  rootCluster : UInt32
  infoSector : UInt32
  backupSector : UInt32

namespace BootSector

def ofBytes (image : ByteArray) : BootSector :=
  let byte (i : Nat) := (Bytes.byteAt image i).toUInt32
  let half (i : Nat) := Bytes.halfAt image i
  let word (i : Nat) := Bytes.wordAt image i
  let wide := half 22 = 0
  { sectorSize := half 11
    clusterSectors := byte 13
    reserved := half 14
    tables := byte 16
    rootEntries := half 17
    total16 := half 19
    total32 := word 32
    table16 := half 22
    table32 := if wide then word 36 else 0
    flags := if wide then half 40 else 0
    version := if wide then half 42 else 0
    rootCluster := if wide then word 44 else 0
    infoSector := if wide then half 48 else 0
    backupSector := if wide then half 50 else 0 }

def isFat32 (b : BootSector) : Bool := b.table16 = 0

def tableSectors (b : BootSector) : UInt32 := if b.isFat32 then b.table32 else b.table16

def totalSectors (b : BootSector) : UInt32 := if b.total16 = 0 then b.total32 else b.total16

/-- The root directory fills whole sectors. -/
def rootSectors (b : BootSector) : UInt32 :=
  (b.rootEntries * 32 + b.sectorSize - 1) / b.sectorSize

def firstRootSector (b : BootSector) : UInt32 := b.reserved + b.tables * b.tableSectors

def firstDataSector (b : BootSector) : UInt32 := b.firstRootSector + b.rootSectors

def clusters (b : BootSector) : UInt32 := (b.totalSectors - b.firstDataSector) / b.clusterSectors

def kind (b : BootSector) : Kind := .ofClusters b.clusters

/-- The first sector of the table in use. Where tables are not mirrored the flags name it. -/
def firstTableSector (b : BootSector) : UInt32 :=
  if b.flags &&& 0x80 = 0 then b.reserved else b.reserved + (b.flags &&& 0xF) * b.tableSectors

/-- Where a sector starts in the image. -/
def sectorOffset (b : BootSector) (sector : UInt32) : Nat := sector.toNat * b.sectorSize.toNat

private def isPowerOfTwo (n : UInt32) : Bool := n ≠ 0 && n &&& (n - 1) = 0

/-- The first check that a boot sector fails. -/
def fault? (b : BootSector) : Option Fault :=
  let checks : List (Bool × Fault) := [
    (isPowerOfTwo b.sectorSize, .sectorSizeNotPower),
    (512 ≤ b.sectorSize, .sectorSizeBelow),
    (b.sectorSize ≤ 4096, .sectorSizeAbove),
    (isPowerOfTwo b.clusterSectors, .clusterSizeNotPower),
    (b.reserved ≠ 0, .reservedSectors),
    (b.tables ≠ 0, .tableCount),
    (!b.isFat32 || b.rootEntries = 0, .rootEntries),
    (b.isFat32 || b.rootEntries ≠ 0, .emptyRoot),
    (!b.isFat32 || b.total16 = 0, .totalSectors16),
    ((b.total16 = 0) != (b.total32 = 0), .totalSectors),
    (!b.isFat32 || b.table32 ≠ 0, .tableSize),
    (b.version = 0, .version),
    (b.firstDataSector < b.totalSectors, .tooFewSectors),
    (!b.isFat32 || b.backupSector < b.reserved, .backupSector),
    (!b.isFat32 || b.infoSector < b.reserved, .infoSector),
    (b.isFat32 = (b.kind = .fat32), .kindMismatch),
    (b.clusters ≤ 0xFFFFFFF, .tooManyClusters)]
  (checks.find? fun (holds, _) => !holds).map (·.2)

end BootSector

/-- A disk image with a boot sector that passed its checks. -/
structure Volume where
  image : ByteArray
  boot : BootSector

namespace Volume

private def checkInfoSector (image : ByteArray) (b : BootSector) : Except Fault Unit := do
  let start := b.sectorOffset b.infoSector
  let word (i : Nat) : Except Fault UInt32 :=
    if image.size < start + i + 4 then .error .shortRead else .ok (Bytes.wordAt image (start + i))
  if (← word 0) ≠ 0x41615252 then throw .infoLead
  if (← word 484) ≠ 0x61417272 then throw .infoStructure
  if (← word 508) ≠ 0xAA550000 then throw .infoTrail

def mount (image : ByteArray) : Except Fault Volume := do
  if image.size < 512 then throw .shortRead
  if Bytes.halfAt image 510 ≠ 0xAA55 then throw .signature
  let b := BootSector.ofBytes image
  if let some fault := b.fault? then throw fault
  if b.kind = .fat32 then checkInfoSector image b
  return ⟨image, b⟩

def clusterSize (v : Volume) : Nat := v.boot.sectorOffset v.boot.clusterSectors

/-- Where a cluster starts in the image. -/
def clusterOffset (v : Volume) (cluster : UInt32) : Nat :=
  v.boot.sectorOffset (v.boot.firstDataSector + (cluster - 2) * v.boot.clusterSectors)

/-- `count` bytes from an offset in the table. -/
private def tableBytes (v : Volume) (offset : UInt32) (count : Nat) : Except Fault ByteArray :=
  let start := v.boot.sectorOffset v.boot.firstTableSector
  let size := v.boot.sectorOffset v.boot.tableSectors
  let offset := offset.toNat
  if size < offset then .error .badPosition
  else
    let bytes := v.image.extract (start + offset) (start + min size (offset + count))
    if bytes.size < count then .error .shortRead else .ok bytes

/-- The cluster that follows another one in its chain, or none at the end of the chain and at an
entry that is free or bad. The entries of the last few clusters of a wide table have no meaning. -/
def next? (v : Volume) (cluster : UInt32) : Except Fault (Option UInt32) := do
  match v.boot.kind with
  | .fat12 =>
    let pair := Bytes.halfAt (← v.tableBytes (cluster + cluster / 2) 2) 0
    let entry := if cluster % 2 = 0 then pair &&& 0xFFF else pair >>> 4
    return if entry = 0 ∨ 0xFF7 ≤ entry then none else some entry
  | .fat16 =>
    let entry := Bytes.halfAt (← v.tableBytes (cluster * 2) 2) 0
    return if entry = 0 ∨ 0xFFF7 ≤ entry then none else some entry
  | .fat32 =>
    let entry := Bytes.wordAt (← v.tableBytes (cluster * 4) 4) 0 &&& 0xFFFFFFF
    let reserved := 0xFFFFFF7 ≤ cluster ∧ cluster ≤ 0xFFFFFFF
    return if entry = 0 ∨ 0xFFFFFF7 ≤ entry ∨ reserved then none else some entry

/-- The readable part of a file or directory, and what stops the reading after it, if that is not
its end. -/
structure Content where
  bytes : ByteArray
  fault? : Option Fault := none

/-- Reads the chain from `cluster` on, up to `left` bytes where a size is known. Reading ends where
the image ends. No more than `fuel` clusters are read. -/
def readChain (v : Volume) : Nat → UInt32 → Option Nat → ByteArray → Content
  | 0, _, _, done => ⟨done, none⟩
  | fuel + 1, cluster, left, done =>
    let start := v.clusterOffset cluster
    let wanted := left.elim v.clusterSize (min v.clusterSize)
    let bytes := v.image.extract start (start + wanted)
    let done := done ++ bytes
    if bytes.size < v.clusterSize then ⟨done, none⟩
    else
      match v.next? cluster with
      | .error e => ⟨done, some e⟩
      | .ok none => ⟨done, none⟩
      | .ok (some next) => v.readChain fuel next (left.map (· - bytes.size)) done

/-- The content of a file of the given size. -/
def readFile (v : Volume) (first : Option UInt32) (size : Nat) : Except Fault ByteArray :=
  match first with
  | none => .ok .empty
  | some cluster =>
    let content := v.readChain (size / v.clusterSize + 1) cluster (some size) .empty
    match content.fault? with
    | none => .ok content.bytes
    | some e => .error e

/-- The entries of a directory. The image has room for so many whole clusters; a longer chain goes
round in a circle and is read twice around. -/
def readDirectory (v : Volume) (first : UInt32) : Content :=
  v.readChain (2 * (v.image.size / v.clusterSize) + 2) first none .empty

def readRoot (v : Volume) : Content :=
  match v.boot.kind with
  | .fat32 => v.readDirectory v.boot.rootCluster
  | _ =>
    let start := v.boot.sectorOffset v.boot.firstRootSector
    ⟨v.image.extract start (start + v.boot.sectorOffset v.boot.rootSectors), none⟩

end Volume

end GameConsole.Fat

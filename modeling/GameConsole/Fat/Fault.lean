/-! What can go wrong when a file is read from a disk image. -/

namespace GameConsole.Fat

inductive Fault
  | shortRead
  | signature
  | sectorSizeNotPower
  | sectorSizeBelow
  | sectorSizeAbove
  | clusterSizeNotPower
  | reservedSectors
  | tableCount
  | rootEntries
  | emptyRoot
  | totalSectors16
  | totalSectors
  | tableSize
  | version
  | tooFewSectors
  | backupSector
  | infoSector
  | kindMismatch
  | tooManyClusters
  | infoLead
  | infoStructure
  | infoTrail
  | badPosition
  | notFound
  | isDirectory
  | notDirectory
deriving DecidableEq

def Fault.message : Fault → String
  | shortRead => "failed to fill whole buffer"
  | signature => "Invalid boot sector signature"
  | sectorSizeNotPower => "invalid bytes_per_sector value in BPB (not power of two)"
  | sectorSizeBelow => "invalid bytes_per_sector value in BPB (value < 512)"
  | sectorSizeAbove => "invalid bytes_per_sector value in BPB (value > 4096)"
  | clusterSizeNotPower => "invalid sectors_per_cluster value in BPB (not power of two)"
  | reservedSectors => "invalid reserved_sectors value in BPB"
  | tableCount => "invalid fats value in BPB"
  | rootEntries => "Invalid root_entries value in BPB (should be zero for FAT32)"
  | emptyRoot => "Empty root directory region defined in FAT12/FAT16 BPB"
  | totalSectors16 => "Invalid total_sectors_16 value in BPB (should be zero for FAT32)"
  | totalSectors => "Invalid BPB (total_sectors_16 or total_sectors_32 should be non-zero)"
  | tableSize => "Invalid sectors_per_fat_32 value in BPB (should be non-zero for FAT32)"
  | version => "Unknown FS version"
  | tooFewSectors => "Invalid BPB (total_sectors field value is too small)"
  | backupSector => "Invalid BPB (backup boot-sector not in a reserved region)"
  | infoSector => "Invalid BPB (FSInfo sector not in a reserved region)"
  | kindMismatch =>
    "Invalid BPB (result of FAT32 determination from total number of clusters and " ++
      "sectors_per_fat_16 field differs)"
  | tooManyClusters => "Invalid BPB (too many clusters)"
  | infoLead => "invalid lead_sig in FsInfo sector"
  | infoStructure => "invalid struc_sig in FsInfo sector"
  | infoTrail => "invalid trail_sig in FsInfo sector"
  | badPosition => "Seek to a negative offset"
  | notFound => "No such file or directory"
  | isDirectory => "Is a directory"
  | notDirectory => "Not a directory"

end GameConsole.Fat

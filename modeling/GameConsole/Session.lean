import GameConsole.CommandLine.Reading
import GameConsole.Fat.Directory

/-! What the headless and the windowed session have in common: setting up the emulator from the
options and the files of the host, and the form of their end. -/

namespace GameConsole

/-- Why an executable cannot be read. -/
inductive LoadFault
  | noDiskImage
  | host (cause : HostError)
  | disk (cause : Fat.Fault)
deriving DecidableEq

def LoadFault.message : LoadFault → String
  | noDiskImage => "--exe-in-disk-image requires --disk-image"
  | host cause => cause.message
  | disk cause => cause.message

/-- Why a session does not come to run. -/
inductive SetupFault
  | options (cause : OptionsFault)
  | executable (cause : LoadFault)
  | bootRom (cause : HostError)
  | console (cause : Fault)
deriving DecidableEq

/-- What a session leaves to others: reading its arguments, and finding a file in a disk image. -/
structure Readers where
  arguments : List String → Except UsageError Options
  diskFile : ByteArray → String → Except Fat.Fault ByteArray

def Readers.standard : Readers := ⟨CommandLine.read, Fat.readPath⟩

namespace Options

variable (readers : Readers)

/-- Reads the executable, from the disk image if the options say so. -/
def loadExe (o : Options) (files : Files) : Except LoadFault ByteArray :=
  if o.exeInDiskImage then
    match o.diskImage with
    | none => .error .noDiskImage
    | some path => do
      let image ← (files path).mapError .host
      (readers.diskFile image o.exe).mapError .disk
  else (files o.exe).mapError .host

/-- Sets up an emulator. Of several faults the first in the order of `SetupFault` counts. -/
def setUp {ρ : Type} [Renderer ρ] (o : Options) (files : Files) (renderer : ρ) :
    Except SetupFault (Emulator ρ) := do
  if let some cause := o.fault? then throw (.options cause)
  let image ← (loadExe readers o files).mapError .executable
  let config ← (o.config files).mapError .bootRom
  (Emulator.boot image config renderer).mapError .console

end Options

/-- The end of a session. -/
structure Closing where
  exitCode : Nat
  log : List String := []
  /-- Empty if there is nothing to complain of. -/
  complaint : String := ""
deriving DecidableEq

namespace Closing

def ofUsage (cause : UsageError) : Closing :=
  { exitCode := cause.exitCode, complaint := cause.message }

def refused (complaint : String) : Closing := { exitCode := 2, complaint }

end Closing

end GameConsole

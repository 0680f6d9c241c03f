import GameConsole.Emulator
import GameConsole.Host

/-! The options of a session: what they are, and what is wrong with them. -/

namespace GameConsole

/-- What can be set apart from the executable. -/
structure Settings where
  bios : Option String := none
  diskImage : Option String := none
  exeInDiskImage : Bool := false
  stopPc : Option UInt32 := none
  maxInstructions : Option Nat := none
  stepsPerQuantum : Option Nat := none
deriving DecidableEq

structure Options extends Settings where
  /-- A path of the host, or a path in the disk image if `exeInDiskImage` is set. -/
  exe : String
deriving DecidableEq

/-- Why arguments are not options. -/
inductive UsageError
  | missingExecutable
  /-- An option that is not known, or an argument for which there is no place. -/
  | unexpected
  /-- A value is missing, or a path is empty. -/
  | missingValue
  | badValue
  | repeated
  /-- A flag was given a value. -/
  | unwantedValue
  | helpRequested
deriving DecidableEq

def UsageError.message : UsageError → String
  | missingExecutable => "error: the path of an executable is required"
  | unexpected => "error: unexpected argument found"
  | missingValue => "error: a value is required for an option but none was supplied"
  | badValue => "error: invalid value for an option"
  | repeated => "error: an option cannot be used multiple times"
  | unwantedValue => "error: unexpected value for a flag"
  | helpRequested => ""

def UsageError.exitCode : UsageError → Nat
  | helpRequested => 0
  | _ => 2

/-- Options that do not go together. -/
inductive OptionsFault
  | noDiskImage
  | emptyQuantum
deriving DecidableEq

def OptionsFault.message : OptionsFault → String
  | noDiskImage => "--exe-in-disk-image requires --disk-image to be specified"
  | emptyQuantum => "--steps-per-quantum must be at least 1"

namespace Options

def fault? (o : Options) : Option OptionsFault :=
  if o.exeInDiskImage && o.diskImage.isNone then some .noDiskImage
  else if o.stepsPerQuantum = some 0 then some .emptyQuantum
  else none

/-- The configuration of the emulator. It has no limit of time. -/
def config (o : Options) (files : Files) : Except HostError Config := do
  let bootRom ← o.bios.mapM files
  return {
    bootRom := bootRom
    stopPc := o.stopPc
    maxSteps := o.maxInstructions
    quantum := o.stepsPerQuantum }

end Options

end GameConsole

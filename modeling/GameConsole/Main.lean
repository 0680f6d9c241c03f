import GameConsole.Session.Headless

/-! The command line: a headless session on the files of the host. -/

namespace GameConsole

def helpText : String :=
  "\n".intercalate [
    "Runs an executable without a window and reports how it ended.",
    "",
    "Usage: [OPTIONS] <EXE>",
    "",
    "  --bios <PATH>                 boot ROM image",
    "  --disk-image <PATH>           disk image with a FAT file system",
    "  --exe-in-disk-image           take <EXE> from the disk image",
    "  --stop-pc <ADDRESS>           stop at this program counter, 0x1234 or 1234",
    "  -i, --max-instructions <N>    stop after this many instructions",
    "  --steps-per-quantum <N>       instructions between two looks at the clock",
    "  -h, --help                    print this text"]

/-- The number of a system error, which may come negated. -/
def errorNumber (code : UInt32) : UInt32 := min code (0 - code)

def systemText (code : UInt32) (details : String) : String :=
  s!"{details} (os error {errorNumber code})"

def HostError.ofSystem : IO.Error → HostError
  | .noFileOrDirectory .. => .notFound
  | .inappropriateType _ code details =>
    if errorNumber code = 20 then .notDirectory
    else if errorNumber code = 21 then .isDirectory
    else .other (systemText code details)
  | .permissionDenied _ code details => .other (systemText code details)
  | .invalidArgument _ code details => .other (systemText code details)
  | .resourceExhausted _ code details => .other (systemText code details)
  | error => .other (toString error)

def readHost (path : String) : IO (Except HostError ByteArray) := do
  try
    return .ok (← IO.FS.readBinFile path)
  catch error =>
    return .error (.ofSystem error)

/-- Reads the files that a session may ask for. -/
def readFiles (paths : List String) : IO Files := do
  let contents ← paths.mapM fun path => return (path, ← readHost path)
  return fun path => (contents.lookup path).getD (.error .notFound)

/-- The files that are asked for. -/
def Options.paths (o : Options) : List String :=
  let image := if o.exeInDiskImage then o.diskImage.toList else [o.exe]
  image ++ o.bios.toList

/-- More quanta than a run can take. -/
def unlimited : Nat := 0x4000000000000000

def finish (closing : Closing) : IO UInt32 := do
  closing.log.forM fun line => IO.println line
  if !closing.complaint.isEmpty then
    IO.eprintln closing.complaint
  return closing.exitCode.toUInt32

def session (arguments : List String) : IO UInt32 := do
  match CommandLine.read arguments with
  | .error .helpRequested =>
    IO.println helpText
    return 0
  | .error cause => finish (.ofUsage cause)
  | .ok options =>
    let files ← readFiles options.paths
    match Headless.runOptions .standard files (fun _ => 0) unlimited options with
    | some closing => finish closing
    | none => return 2

end GameConsole

def main (arguments : List String) : IO UInt32 := GameConsole.session arguments

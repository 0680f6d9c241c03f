import GameConsole.Session

/-! The headless session: it runs an executable to its end, counts what was drawn, and tells by its
exit code whether the run went as expected. -/

namespace GameConsole.Headless

def complaint : SetupFault → String
  | .options cause => "Error: " ++ cause.message
  | .executable cause => "Failed to load EXE file: " ++ cause.message
  | .bootRom cause => "Failed to load boot ROM: " ++ cause.message
  | .console cause => "Failed to create emulator: " ++ cause.message

variable (expected : Option UInt32) (reason : StopReason) (e : Emulator PrimitiveLog)

/-- Whether the processor stopped at the address it was expected to reach, if there is one. -/
def reached : Bool :=
  match expected with
  | none => true
  | some pc => e.stopped && e.pc == pc

def pcText (pc : UInt32) : String := Numeral.hexUpper pc.toNat

def finalLines : List String :=
  ["Stop reason: " ++ reason.record,
    s!"PC: {pcText e.pc} (stopped: {e.stopped})",
    s!"Primitives: {e.renderer.quads} quads, {e.renderer.sprites} sprites, " ++
      s!"{e.renderer.operations} operations"] ++ e.report

/-- The end of a session whose run is over. -/
def close : Closing :=
  let log := finalLines reason e
  match reason with
  | .fault cause => { exitCode := 2, log, complaint := "Emulator error: " ++ cause.message }
  | .timeout =>
    { exitCode := 1, log, complaint := "Timeout reached before stop conditions met" }
  | .stopCondition =>
    if reached expected e then
      { exitCode := 0, log := log ++ ["PASS: All stop conditions reached"] }
    else
      { exitCode := 1, log,
        complaint := s!"CPU did not reach expected PC {pcText (expected.getD 0)} " ++
          s!"(actual: {pcText e.pc}, stopped: {e.stopped})" }

variable (readers : Readers)

/-- A session with the given options. There is no end if the run takes more quanta than allowed, or
does not come back. -/
def runOptions (files : Files) (clock : Nat → Nat) (allowance : Nat) (o : Options) :
    Option Closing :=
  match o.setUp readers files ({} : PrimitiveLog) with
  | .error cause => some (.refused (complaint cause))
  | .ok e => (e.run clock allowance).map fun (reason, e) => close o.stopPc reason e

/-- A session from its arguments to its end. -/
def run (files : Files) (clock : Nat → Nat) (allowance : Nat) (arguments : List String) :
    Option Closing :=
  match readers.arguments arguments with
  | .error cause => some (.ofUsage cause)
  | .ok o => runOptions readers files clock allowance o

end GameConsole.Headless

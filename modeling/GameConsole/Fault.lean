import GameConsole.Numeral
import GameConsole.Word

/-! The causes that halt the console, each with its message and its record form. -/

namespace GameConsole

/-- What is wrong with an executable image. -/
inductive ImageFault
  | tooSmall (size : Nat)
  | truncated (declared : UInt32) (available : Nat)
  | doesNotFit (offset size : UInt32)
deriving DecidableEq

inductive Fault
  | unmappedRead (width : Width) (addr : UInt32)
  | unmappedWrite (width : Width) (addr data : UInt32)
  | hardwareRead (width : Width) (addr : UInt32)
  | hardwareWrite (width : Width) (addr data : UInt32)
  | gpuStatusCommand (command : UInt8)
  | unimplementedOpcode (opcode word pc : UInt32)
  | unimplementedSpecial (function word pc : UInt32)
  | runawayDelaySlots (pc : UInt32)
  | unsupportedPrimitive (opcode : UInt8)
  | image (cause : ImageFault)
deriving DecidableEq

open Numeral

/-- The width in bits, two digits wide. -/
def Width.text : Width → String
  | byte => "08"
  | half => "16"
  | word => "32"

def Width.name : Width → String
  | byte => "Byte"
  | half => "Half"
  | word => "Word"

private def byteText (b : UInt8) : String := hexPadded 2 b.toNat

private def offsetText (a : UInt32) : String := hexPadded 4 a.toNat

private def wordText (w : UInt32) : String := hexPadded 8 w.toNat

def ImageFault.message : ImageFault → String
  | tooSmall size => s!"image is {size} bytes, smaller than the 2048-byte header"
  | truncated declared available =>
    s!"header declares {hex declared.toNat} payload bytes but only {hex available} follow it"
  | doesNotFit offset size =>
    s!"payload of {hex size.toNat} bytes at RAM offset {hex offset.toNat} does not fit in RAM"

namespace Fault

def message : Fault → String
  | unmappedRead w addr => s!"unmapped {w.text}-bit read at {wordText addr}"
  | unmappedWrite w addr data =>
    s!"unmapped {w.text}-bit write at {wordText addr} <- {hex data.toNat}"
  | hardwareRead w addr => s!"unsupported hardware {w.text}-bit read at {offsetText addr}"
  | hardwareWrite w addr data =>
    s!"unsupported hardware {w.text}-bit write at {offsetText addr} <- {wordText data}"
  | gpuStatusCommand command => s!"unsupported GPU status command {byteText command}"
  | unimplementedOpcode opcode word pc =>
    s!"unimplemented instruction {wordText word} (opcode {hexPadded 2 opcode.toNat})" ++
      s!" at {wordText pc}"
  | unimplementedSpecial function word pc =>
    s!"unimplemented special instruction {wordText word}" ++
      s!" (function {hexPadded 2 function.toNat}) at {wordText pc}"
  | runawayDelaySlots pc =>
    s!"control transfers fill every delay slot from {wordText pc} onwards"
  | unsupportedPrimitive opcode => s!"unsupported GPU render primitive {byteText opcode}"
  | image cause => s!"executable image: {cause.message}"

end Fault

/-- `Name { field: value, … }`, the record form of a log line. -/
def recordText (name : String) (fields : List (String × String)) : String :=
  name ++ " \x7b " ++ ", ".intercalate (fields.map fun (key, value) => key ++ ": " ++ value) ++
    " \x7d"

def ImageFault.record : ImageFault → String
  | tooSmall size => recordText "FileTooSmall" [("len", toString size)]
  | truncated declared available =>
    recordText "Truncated" [("declared", toString declared), ("available", toString available)]
  | doesNotFit offset size =>
    recordText "DoesNotFit" [("offset", toString offset), ("size", toString size)]

def Fault.record : Fault → String
  | unmappedRead w addr =>
    recordText "UnmappedRead" [("width", w.name), ("addr", toString addr)]
  | unmappedWrite w addr data =>
    recordText "UnmappedWrite" [("width", w.name), ("addr", toString addr), ("data", toString data)]
  | hardwareRead w addr =>
    recordText "HardwareRead" [("width", w.name), ("addr", toString addr)]
  | hardwareWrite w addr data =>
    recordText "HardwareWrite" [("width", w.name), ("addr", toString addr), ("data", toString data)]
  | gpuStatusCommand command => recordText "GpuStatusCommand" [("command", toString command)]
  | unimplementedOpcode opcode word pc =>
    recordText "UnimplementedOpcode"
      [("opcode", toString opcode), ("word", toString word), ("pc", toString pc)]
  | unimplementedSpecial function word pc =>
    recordText "UnimplementedSpecial"
      [("function", toString function), ("word", toString word), ("pc", toString pc)]
  | runawayDelaySlots pc => recordText "RunawayDelaySlots" [("pc", toString pc)]
  | unsupportedPrimitive opcode => recordText "UnsupportedPrimitive" [("opcode", toString opcode)]
  | image cause => s!"Exe({cause.record})"

end GameConsole

/-! The top byte of an address selects its segment. Three of them show the RAM, one the boot ROM
and one the input and output block, which is split at offset `0x400`. -/

namespace GameConsole

inductive Segment
  | ram
  | rom
  | scratch
  /-- A hardware register, by the low sixteen bits of its address. -/
  | hardware (offset : UInt32)
deriving DecidableEq

def Segment.ofAddress? (addr : UInt32) : Option Segment :=
  let top := addr >>> 24
  if top = 0x00 ∨ top = 0x80 ∨ top = 0xA0 then some .ram
  else if top = 0xBF then some .rom
  else if top = 0x1F then
    let offset := addr &&& 0xFFFF
    some (if offset < 0x400 then .scratch else .hardware offset)
  else none

end GameConsole

import GameConsole.Gpu.Raster

/-! The frame that a window shows: the picture with each pixel as a square of two by two, and black
beside it. -/

namespace GameConsole

namespace Raster

/-- How many pixels of a window a pixel of the picture takes in each direction. -/
def scale : Nat := 2

/-- The color at a place of the window. -/
def enlarged (picture : Raster) (x y : Nat) : UInt32 :=
  (picture.pixel? (x / scale) (y / scale)).getD 0

/-- Paints the picture into a buffer that holds the rows of a window. A buffer that is too short is
filled as far as it goes. -/
def blit (picture : Raster) (size : Resolution) (buffer : Array UInt32) : Array UInt32 :=
  size.height.fold (fun y _ buffer =>
    size.width.fold (fun x _ buffer =>
      buffer.setIfInBounds (y * size.width + x) (picture.enlarged x y)) buffer) buffer

/-- What a buffer holds before it is painted. -/
def unpainted : UInt32 := 0xFFFFFFFF

def frame (picture : Raster) (size : Resolution) : Raster :=
  ⟨size, picture.blit size (.replicate (size.width * size.height) unpainted)⟩

end Raster

end GameConsole

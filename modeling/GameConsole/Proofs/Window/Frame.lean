import GameConsole.Proofs.Checked.Raster
import GameConsole.Window.Frame

/-! Painting the frame of a window. The rows of the window follow each other in the buffer, so the
painting goes through its indices in order: at each moment those below the next one have their
colors and the others are as they were. The pixels that are looked up on the way are all in the
picture. -/

namespace GameConsole.Raster

open Checked

/-- The color at a place of the window, with the pixel looked up in the picture. -/
def enlarged? (picture : Raster) (x y : Nat) : Option UInt32 := do
  return (← picture.look? (x / scale) (y / scale)).getD 0

/-- Paints one row of the window, with each index a number of its type. An index may lie outside of
the buffer. -/
def blitRow? (picture : Raster) (width y : Nat) (buffer : Array UInt32) : Option (Array UInt32) :=
  steps? (fun x buffer => do
    let color ← picture.enlarged? x y
    let row ← u32 (y * width)
    let i ← u32 (row + x)
    return buffer.setIfInBounds i.toNat color) width buffer

def blit? (picture : Raster) (size : Resolution) (buffer : Array UInt32) : Option (Array UInt32) :=
  steps? (picture.blitRow? size.width) size.height buffer

/-! ### Painted buffers -/

/-- The second buffer is the first one with these colors at the indices below `k`. -/
def Painted (color : Nat → UInt32) (buffer : Array UInt32) (k : Nat)
    (painted : Array UInt32) : Prop :=
  ∀ i, painted[i]? = buffer[i]?.map fun old => if i < k then color i else old

namespace Painted

variable {color : Nat → UInt32} {buffer painted : Array UInt32} {k : Nat}

theorem zero (color : Nat → UInt32) (buffer : Array UInt32) : Painted color buffer 0 buffer := by
  intro i
  simp

theorem succ (h : Painted color buffer k painted) :
    Painted color buffer (k + 1) (painted.setIfInBounds k (color k)) := by
  intro i
  rw [getElem?_setIfInBounds_eq_map, h, Option.map_map]
  congr 1
  funext old
  by_cases hi : k = i
  · subst hi
    simp
  · have hlt : i < k + 1 ↔ i < k := by omega
    simp [hi, hlt]

theorem size_eq (h : Painted color buffer k painted) : painted.size = buffer.size := by
  have hnone (i : Nat) : painted.size ≤ i ↔ buffer.size ≤ i := by
    rw [← Array.getElem?_eq_none_iff, h, Option.map_eq_none_iff, Array.getElem?_eq_none_iff]
  exact Nat.le_antisymm ((hnone _).2 le_rfl) ((hnone _).1 le_rfl)

end Painted

/-! ### Painting -/

/-- The color of the window at an index of its rows. -/
def windowColor (picture : Raster) (width i : Nat) : UInt32 :=
  picture.enlarged (i % width) (i / width)

theorem windowColor_eq (picture : Raster) {width x : Nat} (y : Nat) (hx : x < width) :
    picture.windowColor width (y * width + x) = picture.enlarged x y := by
  rw [windowColor, row_div hx, Nat.mul_comm, Nat.mul_add_mod, Nat.mod_eq_of_lt hx]

section

variable {picture : Raster} {size : Resolution} {buffer painted : Array UInt32}
  (hpixels : picture.pixels.size = picture.resolution.width * picture.resolution.height)
  (hsource : picture.resolution.width * picture.resolution.height < 0x100000000)
  (hsize : size.width * size.height < 0x100000000)

include hpixels hsource

theorem enlarged?_eq (x y : Nat) : picture.enlarged? x y = some (picture.enlarged x y) := by
  simp only [enlarged?, look?_eq_of_size hpixels hsource.le, Option.bind_eq_bind, Option.bind_some]
  rfl

include hsize

theorem safe_blitRow {y : Nat} (hy : y < size.height)
    (h : Painted (picture.windowColor size.width) buffer (y * size.width) painted) :
    Safe (picture.blitRow? size.width y painted)
      (size.width.fold (fun x _ buffer =>
        buffer.setIfInBounds (y * size.width + x) (picture.enlarged x y)) painted)
      (Painted (picture.windowColor size.width) buffer ((y + 1) * size.width)) := by
  rw [Nat.succ_mul]
  refine safe_steps?_of_succ
    (p := fun x => Painted (picture.windowColor size.width) buffer (y * size.width + x))
    (fun x hx painted h => ?_) h
  obtain ⟨hrow, hindex⟩ := u32_index hx hy hsize.le
  constructor
  · simp only [enlarged?_eq hpixels hsource, hrow, hindex, Option.bind_eq_bind, Option.bind_some,
      Int.toNat_natCast]
    rfl
  · rw [← picture.windowColor_eq y hx]
    exact h.succ

theorem safe_blit (buffer : Array UInt32) :
    Safe (picture.blit? size buffer) (picture.blit size buffer)
      (Painted (picture.windowColor size.width) buffer (size.height * size.width)) := by
  refine safe_steps?_of_succ
    (p := fun y => Painted (picture.windowColor size.width) buffer (y * size.width))
    (fun y hy painted h => safe_blitRow hpixels hsource hsize hy h) ?_
  rw [Nat.zero_mul]
  exact .zero _ _

end

/-- A buffer of any length gets the pixels of the picture at half the coordinates of the window, and
black where there are none. No index on the way is out of range. -/
theorem blit_paints (picture : Raster) (size : Resolution) (buffer : Array UInt32)
    (hpixels : picture.pixels.size = picture.resolution.width * picture.resolution.height)
    (hsource : picture.resolution.width * picture.resolution.height < 0x100000000)
    (hsize : size.width * size.height < 0x100000000) :
    picture.blit? size buffer = some (picture.blit size buffer) ∧
    (picture.blit size buffer).size = buffer.size ∧
    ∀ i < buffer.size, (picture.blit size buffer)[i]? =
      if i < size.width * size.height then
        if i % size.width / 2 < picture.resolution.width ∧
            i / size.width / 2 < picture.resolution.height then
          picture.pixels[i / size.width / 2 * picture.resolution.width + i % size.width / 2]?
        else some 0
      else buffer[i]? := by
  obtain ⟨hblit, hpainted⟩ := safe_blit hpixels hsource hsize buffer
  refine ⟨hblit, hpainted.size_eq, fun i hi => ?_⟩
  rw [hpainted, Nat.mul_comm size.height, Array.getElem?_eq_getElem hi, Option.map_some]
  split
  · split
    · rename_i hin
      have hlt := index_lt hin.1 hin.2
      rw [← hpixels] at hlt
      have hpixel : picture.pixel? (i % size.width / scale) (i / size.width / scale) = _ :=
        (if_pos hin).trans (Array.getElem?_eq_getElem hlt)
      rw [windowColor, enlarged, hpixel, Option.getD_some, Array.getElem?_eq_getElem hlt]
    · rename_i hout
      have hpixel : picture.pixel? (i % size.width / scale) (i / size.width / scale) = none :=
        if_neg hout
      rw [windowColor, enlarged, hpixel, Option.getD_none]
  · rfl

/-- A picture of two by two in a window of five by three, with one pixel more in the buffer. -/
theorem blit_paints_square :
    let picture : Raster := ⟨⟨2, 2⟩, #[1, 2, 3, 4]⟩
    let frame := picture.blit ⟨5, 3⟩ (.replicate 16 7)
    frame[12]? = some 4 ∧ frame[14]? = some 0 ∧ frame[15]? = some 7 := by
  intro picture frame
  obtain ⟨-, -, h⟩ := blit_paints picture ⟨5, 3⟩ (.replicate 16 7) rfl (by decide) (by decide)
  exact ⟨h 12 (by decide), h 14 (by decide), h 15 (by decide)⟩

end GameConsole.Raster

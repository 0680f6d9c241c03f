import GameConsole.Gpu.Renderer

/-! The renderer that draws into a framebuffer. A quad is two triangles that share an edge, and a
pixel belongs to a triangle if it lies on the inner side of, or on, each of the three edges. -/

namespace GameConsole

/-- A picture in rows from the top, each pixel a number `0xRRGGBB`. -/
structure Raster where
  resolution : Resolution
  pixels : Array UInt32

namespace Raster

def black (resolution : Resolution) : Raster :=
  ⟨resolution, .replicate (resolution.width * resolution.height) 0⟩

def initial : Raster := black .standard

def pixel? (s : Raster) (x y : Nat) : Option UInt32 :=
  if x < s.resolution.width ∧ y < s.resolution.height then
    s.pixels[y * s.resolution.width + x]?
  else none

/-- Sets a pixel. What lies outside the picture is not drawn. -/
def put (s : Raster) (x y : Int) (rgb : UInt32) : Raster :=
  let ⟨resolution, pixels⟩ := s
  if 0 ≤ x ∧ x < resolution.width ∧ 0 ≤ y ∧ y < resolution.height then
    ⟨resolution, pixels.setIfInBounds (y.toNat * resolution.width + x.toNat) rgb⟩
  else ⟨resolution, pixels⟩

/-- Does `f` for each place of a rectangle, row by row. -/
@[specialize]
def forRectangle (s : Raster) (x y : Int) (width height : Nat)
    (f : Raster → Int → Int → Raster) : Raster :=
  height.fold (fun j _ s => width.fold (fun i _ s => f s (x + i) (y + j)) s) s

def spriteColor : UInt32 := 0x7F7F7F

def fillSquare (s : Raster) (origin : Point) (size : Nat) (rgb : UInt32) : Raster :=
  s.forRectangle origin.x.toInt origin.y.toInt size size fun s x y => s.put x y rgb

/-- Twice the signed area of the triangle `abc`: which side of `ab` the point `c` is on, and how
far off. -/
def edge (a b c : Int × Int) : Int :=
  (b.1 - a.1) * (c.2 - a.2) - (b.2 - a.2) * (c.1 - a.1)

/-- The weights of the three vertices at a place. They add up to the area of the triangle. -/
structure Weights where
  a : Int
  b : Int
  c : Int

def Weights.at (a b c p : Int × Int) : Weights := ⟨edge b c p, edge c a p, edge a b p⟩

/-- Whether a place with these weights is inside a triangle with the given area. -/
def Weights.inside (w : Weights) (area : Int) : Bool :=
  if 0 < area then 0 ≤ w.a && 0 ≤ w.b && 0 ≤ w.c else w.a ≤ 0 && w.b ≤ 0 && w.c ≤ 0

/-- The weighted mean of three channel values, toward zero and within the range of a byte. -/
def Weights.mix (w : Weights) (area : Int) (a b c : UInt8) : UInt32 :=
  let sum := (a.toNat : Int) * w.a + (b.toNat : Int) * w.b + (c.toNat : Int) * w.c
  .ofNat (min 255 (max 0 (sum.tdiv area))).toNat

def Weights.shade (w : Weights) (area : Int) (a b c : Color) : UInt32 :=
  w.mix area a.r b.r c.r * 0x10000 + w.mix area a.g b.g c.g * 0x100 + w.mix area a.b b.b c.b

def place (p : Point) : Int × Int := (p.x.toInt, p.y.toInt)

/-- The part of the range from the least to the greatest of three numbers that lies below `size`:
where it starts and how many numbers it has. -/
def span (a b c : Int) (size : Nat) : Int × Nat :=
  let low := max (min a (min b c)) 0
  let high := min (max a (max b c)) (size - 1)
  (low, (high + 1 - low).toNat)

/-- Draws a triangle with its colors mixed between the vertices. One without area is not drawn. -/
def fillTriangle (s : Raster) (a b c : Vertex) : Raster :=
  let pa := place a.point
  let pb := place b.point
  let pc := place c.point
  let area := edge pa pb pc
  if area = 0 then s
  else
    let (x, width) := span pa.1 pb.1 pc.1 s.resolution.width
    let (y, height) := span pa.2 pb.2 pc.2 s.resolution.height
    s.forRectangle x y width height fun s x y =>
      let w := Weights.at pa pb pc (x, y)
      if w.inside area then s.put x y (w.shade area a.color b.color c.color) else s

def drawPrimitive (s : Raster) : Primitive → Raster
  | .quad a b c d => (s.fillTriangle a b c).fillTriangle b c d
  | .sprite size _ origin => s.fillSquare origin size spriteColor
  | .operation _ => s

instance : Renderer Raster where
  reset _ resolution := black resolution
  draw s p :=
    match Primitive.decode p.opcode p.words with
    | .error e => (.error e, s)
    | .ok primitive => (.ok (), s.drawPrimitive primitive)

end Raster

end GameConsole

import Mathlib.Data.List.Basic
import Velacritty.MachineInts
import Velacritty.Rects

/-! Texture atlases: the placement of glyphs in rows. -/
namespace Velacritty

def atlasSize : Int := 1024

/-- The format of a glyph's bitmap. -/
inductive BitmapBuffer where
  | rgb
  | rgba
  deriving DecidableEq, Repr

structure RasterizedGlyph where
  width : Int
  height : Int
  top : Int
  left : Int
  buffer : BitmapBuffer
  deriving DecidableEq, Repr

/-- A glyph of an atlas; `uv` is its region of the texture, in pixels. -/
structure Glyph where
  texId : Nat
  multicolor : Bool
  top : Int
  left : Int
  width : Int
  height : Int
  uv : Rect
  deriving DecidableEq, Repr

structure Atlas where
  /-- Texture id for this atlas. -/
  id : Nat
  width : Int
  height : Int
  /-- Left-most free pixel in a row. -/
  rowExtent : Int
  /-- Baseline for glyphs in the current row. -/
  rowBaseline : Int
  /-- Tallest glyph in current row. -/
  rowTallest : Int
  isGlesContext : Bool
  deriving DecidableEq, Repr

inductive AtlasInsertError where
  | full
  | glyphTooLarge
  deriving DecidableEq, Repr

namespace Atlas

def new (size : Int) (isGlesContext : Bool) (id : Nat) : Atlas :=
  ⟨id, size, size, 0, 0, 0, isGlesContext⟩

def clear (a : Atlas) : Atlas := { a with rowExtent := 0, rowBaseline := 0, rowTallest := 0 }

/-- Check if there's room in the current row for given glyph. -/
def roomInRow (a : Atlas) (raw : RasterizedGlyph) : Bool :=
  decide (i32 (a.rowExtent + raw.width) ≤ a.width ∧ raw.height < i32 (a.height - a.rowBaseline))

/-- Mark current row as finished and prepare to insert into the next row; `none` if the atlas is
full. -/
def advanceRow (a : Atlas) : Option Atlas :=
  if i32 (a.height - i32 (a.rowBaseline + a.rowTallest)) ≤ 0 then none
  else some { a with
    rowBaseline := i32 (a.rowBaseline + a.rowTallest)
    rowExtent := 0
    rowTallest := 0 }

def insertInner (a : Atlas) (glyph : RasterizedGlyph) : Glyph × Atlas :=
  ({ texId := a.id
     multicolor := decide (glyph.buffer = .rgba)
     top := i16 glyph.top
     left := i16 glyph.left
     width := i16 glyph.width
     height := i16 glyph.height
     uv := ⟨a.rowExtent, a.rowBaseline, glyph.width, glyph.height⟩ },
   { a with
     rowExtent := i32 (a.rowExtent + glyph.width)
     rowTallest := if a.rowTallest < glyph.height then glyph.height else a.rowTallest })

def insert (a : Atlas) (glyph : RasterizedGlyph) : Except AtlasInsertError Glyph × Atlas :=
  if a.width < glyph.width ∨ a.height < glyph.height then (.error .glyphTooLarge, a)
  else
    match if a.roomInRow glyph then some a else a.advanceRow with
    | none => (.error .full, a)
    | some a =>
        if a.roomInRow glyph then (.ok (a.insertInner glyph).1, (a.insertInner glyph).2)
        else (.error .full, a)

end Atlas

inductive AtlasOp where
  | insert (glyph : RasterizedGlyph)
  | clear
  deriving DecidableEq, Repr

/-- An atlas, and the rectangles that were handed out since it was cleared. -/
structure Packing where
  atlas : Atlas
  placed : List Rect
  deriving DecidableEq, Repr

namespace Packing

/-- Keep the rectangle that an insertion hands out; a failed one hands out none. -/
def receive (placed : List Rect) : Except AtlasInsertError Glyph × Atlas → Packing
  | (.ok glyph, a) => ⟨a, glyph.uv :: placed⟩
  | (.error _, a) => ⟨a, placed⟩

def step (p : Packing) : AtlasOp → Packing
  | .insert glyph => receive p.placed (p.atlas.insert glyph)
  | .clear => ⟨p.atlas.clear, []⟩

/-- A run of operations on an atlas that was just created. -/
def run (a : Atlas) (ops : List AtlasOp) : Packing := ops.foldl step ⟨a, []⟩

end Packing
end Velacritty

import Velacritty.GlyphRegions
import Velacritty.RenderLines

/-! Drawing text: the glyphs of cells are collected in batches of one texture, and every batch is
drawn at once. -/
namespace Velacritty
open Fallible

/-- What the text renderer reads of a cell; `bgAlpha` is that of the vertices. -/
structure TextCell extends RenderableCell where
  bg : Rgb
  bgAlpha : UInt8
  zerowidth : Option (List Char)

/-- The batches of a renderer: what an item adds to one, and when it is full. -/
structure TextRenderBatch (V : Type) where
  capacity : Nat
  entries : TextCell → Glyph → List V
  /-- The texture of a batch that was cleared. -/
  clearTex : Nat → Nat
  perItem : Nat
  length_entries : ∀ cell glyph, (entries cell glyph).length = perItem
  perItem_pos : 0 < perItem
  capacity_pos : 0 < capacity
  perItem_dvd : perItem ∣ capacity

namespace Gles2

/-- A corner of a glyph; its offset into the atlas is in pixels. -/
structure TextVertex where
  x : Int
  y : Int
  glyphX : Int
  glyphY : Int
  u : Int
  v : Int
  fg : Rgb
  colored : Bool
  bg : Rgb
  bgAlpha : UInt8
  deriving DecidableEq, Repr

/-- Maximum items to be drawn in a batch. -/
def batchMax : Nat := 65535 - 65535 % 4

def vertices (cellWidth cellHeight : Int) (cell : TextCell) (glyph : Glyph) : List TextVertex :=
  let x := i16 (i16 cell.point.column * cellWidth)
  let y := i16 (i16 cell.point.line * cellHeight)
  let glyphX := i16 (i16 (i16 cell.point.column * cellWidth) + glyph.left)
  let glyphY := i16 (i16 (i16 (cell.point.line + 1 : Nat) * cellHeight) - glyph.top)
  let isWide := if cell.flags.wideChar then 2 else 1
  let vertex : TextVertex :=
    { x
      y := i16 (y + cellHeight)
      glyphX
      glyphY := i16 (glyphY + glyph.height)
      u := glyph.uv.x
      v := glyph.uv.y + glyph.uv.height
      fg := cell.fg
      colored := glyph.multicolor
      bg := cell.bg
      bgAlpha := cell.bgAlpha }
  let right := i16 (x + i16 (isWide * cellWidth))
  [vertex,
    { vertex with y, glyphY, u := glyph.uv.x, v := glyph.uv.y },
    { vertex with
      x := right, y, glyphX := i16 (glyphX + glyph.width), glyphY,
      u := glyph.uv.x + glyph.uv.width, v := glyph.uv.y },
    { vertex with
      x := right, y := i16 (y + cellHeight), glyphX := i16 (glyphX + glyph.width),
      glyphY := i16 (glyphY + glyph.height), u := glyph.uv.x + glyph.uv.width,
      v := glyph.uv.y + glyph.uv.height }]

def batch (cellWidth cellHeight : Int) : TextRenderBatch TextVertex where
  capacity := batchMax
  entries := vertices cellWidth cellHeight
  clearTex := id
  perItem := 4
  length_entries _ _ := rfl
  perItem_pos := by decide
  capacity_pos := by decide
  perItem_dvd := by decide

end Gles2

namespace Glsl3

structure InstanceData where
  col : Nat
  row : Nat
  left : Int
  top : Int
  width : Int
  height : Int
  uv : Rect
  fg : Rgb
  colored : Bool
  wideChar : Bool
  bg : Rgb
  bgAlpha : UInt8
  deriving DecidableEq, Repr

/-- Maximum items to be drawn in a batch. -/
def batchMax : Nat := 0x10000

def instances (cell : TextCell) (glyph : Glyph) : List InstanceData :=
  [{ col := cell.point.column % 2 ^ 16
     row := cell.point.line % 2 ^ 16
     left := glyph.left
     top := glyph.top
     width := glyph.width
     height := glyph.height
     uv := glyph.uv
     fg := cell.fg
     colored := glyph.multicolor
     wideChar := cell.flags.wideChar
     bg := cell.bg
     bgAlpha := cell.bgAlpha }]

def batch : TextRenderBatch InstanceData where
  capacity := batchMax
  entries := instances
  clearTex _ := 0
  perItem := 1
  length_entries _ _ := rfl
  perItem_pos := by decide
  capacity_pos := by decide
  perItem_dvd := by decide

end Glsl3

structure Batch (V : Type) where
  tex : Nat
  vertices : List V

/-- What OpenGL is told to draw, with the texture that is bound. -/
structure DrawCall (V : Type) where
  tex : Nat
  vertices : List V
  deriving DecidableEq, Repr

structure TextRenderApi (F S V : Type) where
  cache : GlyphCache F S
  loader : LoaderApi
  batch : Batch V
  calls : List (DrawCall V)

namespace TextRenderApi
variable {F S V : Type} [DecidableEq F] [DecidableEq S]

omit [DecidableEq F] [DecidableEq S] in
def renderBatch (kind : TextRenderBatch V) (s : TextRenderApi F S V) : TextRenderApi F S V :=
  let loader := if s.loader.activeTex ≠ s.batch.tex then
      { s.loader with boundTex := s.batch.tex, activeTex := s.batch.tex }
    else s.loader
  { s with
    loader
    calls := s.calls ++ [⟨loader.boundTex, s.batch.vertices⟩]
    batch := ⟨kind.clearTex s.batch.tex, []⟩ }

omit [DecidableEq F] [DecidableEq S] in
def addItem (kind : TextRenderBatch V) (s : TextRenderApi F S V) (cell : TextCell) (glyph : Glyph) :
    TextRenderApi F S V :=
  let tex := if s.batch.vertices.isEmpty then glyph.texId else s.batch.tex
  { s with batch := ⟨tex, s.batch.vertices ++ kind.entries cell glyph⟩ }

omit [DecidableEq F] [DecidableEq S] in
def addRenderItem (kind : TextRenderBatch V) (s : TextRenderApi F S V) (cell : TextCell) (glyph : Glyph) :
    TextRenderApi F S V :=
  let s := if !s.batch.vertices.isEmpty && s.batch.tex != glyph.texId then s.renderBatch kind else s
  let s := s.addItem kind cell glyph
  if s.batch.vertices.length = kind.capacity then s.renderBatch kind else s

def drawGlyph (kind : TextRenderBatch V) (r : Rasterizer F S) (cell : TextCell) (showMissing : Bool)
    (s : TextRenderApi F S V) (glyphKey : GlyphKey F S) : Option (TextRenderApi F S V) := do
  let (glyph, cache, loader) ← s.cache.get r s.loader glyphKey showMissing
  some ({ s with cache, loader }.addRenderItem kind cell glyph)

end TextRenderApi

def GlyphCache.fontKeyOf {F S : Type} (c : GlyphCache F S) (flags : Flags) : F :=
  match flags.bold, flags.italic with
  | true, true => c.boldItalicKey
  | false, true => c.italicKey
  | true, false => c.boldKey
  | false, false => c.fontKey

/-- Ignore hidden cells and render tabs as spaces to prevent font issues. -/
def TextCell.shown (cell : TextCell) : TextCell :=
  if cell.character = '\t' || cell.flags.hidden then { cell with character := ' ' } else cell

def TextCell.marks (cell : TextCell) : List Char :=
  if cell.flags.hidden then [] else cell.zerowidth.getD []

namespace TextRenderApi
variable {F S V : Type} [DecidableEq F] [DecidableEq S]

def drawCell (kind : TextRenderBatch V) (r : Rasterizer F S) (s : TextRenderApi F S V) (cell : TextCell) :
    Option (TextRenderApi F S V) := do
  let fontKey := s.cache.fontKeyOf cell.flags
  let fontSize := s.cache.fontSize
  let s ← s.drawGlyph kind r cell.shown true ⟨cell.shown.character, fontKey, fontSize⟩
  (cell.marks.map fun character => ⟨character, fontKey, fontSize⟩).foldlM (drawGlyph kind r cell.shown false) s

/-- Draw cells; what is left in the batch is drawn when the api is dropped. -/
def drawCells (kind : TextRenderBatch V) (r : Rasterizer F S) (s : TextRenderApi F S V)
    (cells : List TextCell) : Option (TextRenderApi F S V) := do
  let s ← cells.foldlM (drawCell kind r) s
  some (if s.batch.vertices.isEmpty then s else s.renderBatch kind)

end TextRenderApi
end Velacritty

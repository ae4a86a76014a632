import Velacritty.AtlasLoading
import Velacritty.OrderedMap

/-! The glyph cache: glyphs are rasterized once, and what is cached stays in the textures. The
rasterizers and OpenGL's names of textures are parameters. -/
namespace Velacritty
open Fallible

structure LoaderApi where
  /-- The texture that the renderer takes to be bound. -/
  activeTex : Nat
  atlas : List Atlas
  currentAtlas : Nat
  boundTex : Nat
  deriving DecidableEq, Repr

namespace LoaderApi

def new (isGlesContext : Bool) (id : Nat) : LoaderApi :=
  ⟨0, [Atlas.new atlasSize isGlesContext id], 0, 0⟩

/-- One call of `Atlas::load_glyph`, up to the call for the next atlas. -/
def tryLoad (genTextures : List Atlas → Nat) (rasterized : RasterizedGlyph) (l : LoaderApi) :
    Option ((Glyph × LoaderApi) ⊕ LoaderApi) := do
  let a ← l.atlas[l.currentAtlas]?
  match a.insert rasterized with
  | (.ok glyph, a) =>
      some (.inl (glyph, { l with
        atlas := l.atlas.set l.currentAtlas a
        activeTex := 0
        boundTex := 0 }))
  | (.error .full, a) =>
      let atlas := l.atlas.set l.currentAtlas a
      if l.currentAtlas + 1 = atlas.length then
        -- `Atlas::new` binds a texture.
        some (.inr {
          atlas := atlas ++ [Atlas.new atlasSize a.isGlesContext (genTextures atlas)]
          currentAtlas := l.currentAtlas + 1
          activeTex := 0
          boundTex := 0 })
      else some (.inr { l with atlas, currentAtlas := l.currentAtlas + 1 })
  | (.error .glyphTooLarge, a) =>
      some (.inl (⟨a.id, false, 0, 0, 0, 0, ⟨0, 0, 0, 0⟩⟩, { l with
        atlas := l.atlas.set l.currentAtlas a }))

def loadGlyph (genTextures : List Atlas → Nat) (rasterized : RasterizedGlyph) (l : LoaderApi) :
    Option (Glyph × LoaderApi) :=
  loop (tryLoad genTextures rasterized) (l.atlas.length + 2) l

def clear (l : LoaderApi) : LoaderApi := { l with atlas := l.atlas.map Atlas.clear, currentAtlas := 0 }

end LoaderApi

structure GlyphKey (F S : Type) where
  character : Char
  fontKey : F
  size : S
  deriving DecidableEq, Repr

structure Bitmap where
  character : Char
  glyph : RasterizedGlyph
  deriving DecidableEq, Repr

/-- `RasterizedGlyph::default`. -/
def Bitmap.empty : Bitmap := ⟨' ', ⟨0, 0, 0, 0, .rgb⟩⟩

inductive RasterizerError where
  | missingGlyph (rasterized : Bitmap)
  | other
  deriving DecidableEq, Repr

structure GlyphCache (F S : Type) where
  /-- Cache of buffered glyphs. -/
  cache : List (GlyphKey F S × Glyph)
  fontKey : F
  boldKey : F
  italicKey : F
  boldItalicKey : F
  fontSize : S
  /-- Glyph offset, right and up. -/
  glyphOffset : Int × Int
  /-- Font metrics, in whole pixels. -/
  descent : Int
  averageAdvance : Int
  builtinBoxDrawing : Bool

/-- What draws bitmaps, and names textures. -/
structure Rasterizer (F S : Type) where
  getGlyph : GlyphKey F S → Except RasterizerError Bitmap
  /-- The built-in font, for some characters. -/
  builtinGlyph : Char → Option Bitmap
  /-- `UnicodeWidthChar::width` is zero. -/
  zeroWidth : Char → Bool
  genTextures : List Atlas → Nat

namespace GlyphCache
variable {F S : Type} [DecidableEq F] [DecidableEq S]

omit [DecidableEq F] [DecidableEq S] in
def loadGlyph (c : GlyphCache F S) (r : Rasterizer F S) (l : LoaderApi) (rasterized : Bitmap) :
    Option (Glyph × LoaderApi) :=
  let glyph := rasterized.glyph
  let left := i32 (glyph.left + c.glyphOffset.1)
  let top := i32 (i32 (glyph.top + c.glyphOffset.2) - c.descent)
  let left := if r.zeroWidth rasterized.character then i32 (left + c.averageAdvance) else left
  l.loadGlyph r.genTextures { glyph with left, top }

/-- Rasterize the glyph using the built-in font for special characters or the user's font for
everything else. -/
def rasterize (c : GlyphCache F S) (r : Rasterizer F S) (glyphKey : GlyphKey F S) :
    Except RasterizerError Bitmap :=
  match if c.builtinBoxDrawing then r.builtinGlyph glyphKey.character else none with
  | some rasterized => .ok rasterized
  | none => r.getGlyph glyphKey

/-- Cache a glyph, unless there is one: `entry(key).or_insert(glyph)`. -/
def orInsert (c : GlyphCache F S) (glyphKey : GlyphKey F S) (glyph : Glyph) : Glyph × GlyphCache F S :=
  match c.cache.lookup glyphKey with
  | some cached => (cached, c)
  | none => (glyph, { c with cache := OrderedMap.insert glyphKey glyph c.cache })

def fetch (c : GlyphCache F S) (r : Rasterizer F S) (l : LoaderApi) (glyphKey : GlyphKey F S)
    (showMissing : Bool) : Option (Glyph × GlyphCache F S × LoaderApi) :=
  match c.rasterize r glyphKey, showMissing with
  | .ok rasterized, _ => (c.loadGlyph r l rasterized).map fun (glyph, l) => (glyph, c, l)
  | .error (.missingGlyph rasterized), true =>
      let missingKey := { glyphKey with character := '\x00' }
      match c.cache.lookup missingKey with
      | some glyph => some (glyph, c, l)
      | none =>
          (c.loadGlyph r l rasterized).map fun (glyph, l) =>
            (glyph, { c with cache := OrderedMap.insert missingKey glyph c.cache }, l)
  | .error _, _ => (c.loadGlyph r l .empty).map fun (glyph, l) => (glyph, c, l)

def get (c : GlyphCache F S) (r : Rasterizer F S) (l : LoaderApi) (glyphKey : GlyphKey F S)
    (showMissing : Bool) : Option (Glyph × GlyphCache F S × LoaderApi) :=
  match c.cache.lookup glyphKey with
  | some glyph => some (glyph, c, l)
  | none => do
      let (glyph, c, l) ← c.fetch r l glyphKey showMissing
      let (glyph, c) := c.orInsert glyphKey glyph
      some (glyph, c, l)

def asciiCharacters : List Char := (List.range' 32 95).map Char.ofNat

def loadGlyphsForFont (c : GlyphCache F S) (r : Rasterizer F S) (l : LoaderApi) (font : F) :
    Option (GlyphCache F S × LoaderApi) :=
  let size := c.fontSize
  asciiCharacters.foldlM (fun (c, l) character => (c.get r l ⟨character, font, size⟩ true).map Prod.snd) (c, l)

/-- Prefetch glyphs that are almost guaranteed to be loaded anyways. -/
def loadCommonGlyphs (c : GlyphCache F S) (r : Rasterizer F S) (l : LoaderApi) :
    Option (GlyphCache F S × LoaderApi) := do
  let (c, l) ← c.loadGlyphsForFont r l c.fontKey
  let (c, l) ← c.loadGlyphsForFont r l c.boldKey
  let (c, l) ← c.loadGlyphsForFont r l c.italicKey
  c.loadGlyphsForFont r l c.boldItalicKey

/-- Reset currently cached data in both GL and the registry to default state. -/
def resetGlyphCache (c : GlyphCache F S) (r : Rasterizer F S) (l : LoaderApi) :
    Option (GlyphCache F S × LoaderApi) :=
  { c with cache := [] }.loadCommonGlyphs r l.clear

end GlyphCache
end Velacritty

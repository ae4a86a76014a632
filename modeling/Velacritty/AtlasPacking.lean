import Velacritty.Atlas
import Velacritty.Shelves

/-! What an atlas hands out is never handed out twice. -/
namespace Velacritty
variable {a b : Atlas} {g : RasterizedGlyph} {size : Int}

structure RasterizedGlyph.Sized (g : RasterizedGlyph) : Prop where
  width : 0 ≤ g.width
  height : 0 ≤ g.height

namespace Atlas

def shelf (a : Atlas) : Shelf := ⟨a.rowExtent, a.rowBaseline, a.rowTallest⟩

def texture (a : Atlas) : Rect := ⟨0, 0, a.width, a.height⟩

/-- A square atlas whose rows stay in its texture. -/
structure Fits (size : Int) (a : Atlas) : Prop where
  width : a.width = size
  height : a.height = size
  extent : 0 ≤ a.rowExtent ∧ a.rowExtent ≤ max size 0
  baseline : 0 ≤ a.rowBaseline
  tallest : 0 ≤ a.rowTallest
  top : a.rowBaseline + a.rowTallest ≤ max size 0

theorem clear_fits (hwidth : a.width = size) (hheight : a.height = size) : a.clear.Fits size where
  width := hwidth
  height := hheight
  extent := ⟨Int.le_refl 0, Int.le_max_right _ _⟩
  baseline := Int.le_refl 0
  tallest := Int.le_refl 0
  top := Int.le_max_right _ _

theorem new_fits (size : Int) (isGlesContext : Bool) (id : Nat) :
    Fits size (new size isGlesContext id) :=
  clear_fits (a := new size isGlesContext id) rfl rfl

section
variable (hsize : size < 2 ^ 30) (hpos : 0 ≤ size) (ha : a.Fits size)
include hsize hpos ha

theorem Fits.roomInRow_iff (hg : g.Sized) (hwidth : g.width ≤ size) : a.roomInRow g ↔
    a.rowExtent + g.width ≤ size ∧ g.height < size - a.rowBaseline := by
  have hextent := ha.extent
  have htop := ha.top
  have htallest := ha.tallest
  have hbaseline := ha.baseline
  have hg := hg.width
  rw [Int.max_eq_left hpos] at hextent htop
  unfold roomInRow
  rw [i32_of_fits (by omega) (by omega), ha.width, ha.height, i32_of_fits (by omega) (by omega)]
  exact decide_eq_true_iff

theorem Fits.advanceRow_eq : a.advanceRow =
    if size ≤ a.rowBaseline + a.rowTallest then none
    else some { a with
      rowBaseline := a.rowBaseline + a.rowTallest
      rowExtent := 0
      rowTallest := 0 } := by
  have htop := ha.top
  have htallest := ha.tallest
  have hbaseline := ha.baseline
  rw [Int.max_eq_left hpos] at htop
  unfold advanceRow
  rw [ha.height, i32_of_fits (x := a.rowBaseline + a.rowTallest) (by omega) (by omega),
    i32_of_fits (by omega) (by omega)]
  exact if_congr ⟨Int.le_of_sub_nonpos, Int.sub_nonpos_of_le⟩ rfl rfl

/-- The next row starts above the current one, and fits as well. -/
theorem Fits.advanceRow (h : a.advanceRow = some b) : b.Fits size ∧ b.shelf = a.shelf.next := by
  rw [ha.advanceRow_eq hsize hpos] at h
  split_ifs at h
  obtain rfl := Option.some.inj h
  refine ⟨⟨ha.width, ha.height, ⟨Int.le_refl 0, Int.le_max_right _ _⟩, ?_, Int.le_refl 0, ?_⟩, rfl⟩
  · exact Int.add_nonneg ha.baseline ha.tallest
  · exact (Int.add_zero _).trans_le ha.top

/-- A glyph that there is room for goes to the free place of the row. -/
theorem Fits.insertInner (hg : g.Sized) (hwidth : g.width ≤ size) (hroom : a.roomInRow g) :
    (a.insertInner g).2.Fits size ∧ (a.insertInner g).2.shelf = a.shelf.put g.width g.height ∧
      (a.insertInner g).1.uv = a.shelf.slot g.width g.height ∧
      (a.insertInner g).1.uv.Inside a.texture := by
  have hextent := ha.extent
  have htop := ha.top
  have htallest := ha.tallest
  have hbaseline := ha.baseline
  have hgwidth := hg.width
  rw [ha.roomInRow_iff hsize hpos hg hwidth] at hroom
  rw [Int.max_eq_left hpos] at hextent htop
  have hfits : i32 (a.rowExtent + g.width) = a.rowExtent + g.width :=
    i32_of_fits (by omega) (by omega)
  have htaller : (if a.rowTallest < g.height then g.height else a.rowTallest) =
      max a.rowTallest g.height := by
    split
    · omega
    · omega
  unfold Atlas.insertInner
  rw [hfits, htaller]
  refine ⟨⟨ha.width, ha.height, ⟨?_, ?_⟩, hbaseline, ?_, ?_⟩, rfl, rfl, ?_⟩
  · exact Int.add_nonneg hextent.1 hgwidth
  · exact Int.le_trans hroom.1 (Int.le_max_left _ _)
  · exact Int.le_trans htallest (Int.le_max_left _ _)
  · simp only
    omega
  · constructor
    · exact hextent.1
    · simp only [texture, ha.width]
      omega
    · exact hbaseline
    · simp only [texture, ha.height]
      omega

end

/-- What an insertion does: a failed one may start a row, another one puts the glyph at the free
place of a row. -/
inductive Inserts (size : Int) (a : Atlas) (g : RasterizedGlyph) :
    Except AtlasInsertError Glyph × Atlas → Prop
  | fails {e : AtlasInsertError} {b : Atlas} : b.Fits size →
      b.shelf = a.shelf ∨ b.shelf = a.shelf.next → Inserts size a g (.error e, b)
  | places {s : Shelf} {glyph : Glyph} {b : Atlas} : b.Fits size →
      s = a.shelf ∨ s = a.shelf.next → glyph.uv = s.slot g.width g.height →
      b.shelf = s.put g.width g.height → glyph.uv.Inside b.texture → Inserts size a g (.ok glyph, b)

theorem Fits.insert (hsize : size < 2 ^ 30) (ha : a.Fits size) (hg : g.Sized) :
    Inserts size a g (a.insert g) := by
  unfold Atlas.insert
  split
  · exact .fails ha (.inl rfl)
  · next hsmall =>
      rw [ha.width, ha.height] at hsmall
      have hwidth : g.width ≤ size := by omega
      have hpos : 0 ≤ size := Int.le_trans hg.width hwidth
      by_cases hroom : a.roomInRow g = true
      · rw [if_pos hroom]
        simp only [hroom, if_true]
        obtain ⟨hfits, hshelf, huv, hinside⟩ := ha.insertInner hsize hpos hg hwidth hroom
        exact .places hfits (.inl rfl) huv hshelf hinside
      · rw [if_neg hroom]
        cases hrow : a.advanceRow with
        | none => exact .fails ha (.inl rfl)
        | some b =>
            obtain ⟨hb, hnext⟩ := ha.advanceRow hsize hpos hrow
            simp only
            split
            · next hroom =>
                obtain ⟨hfits, hshelf, huv, hinside⟩ := hb.insertInner hsize hpos hg hwidth hroom
                exact .places hfits (.inr hnext) huv hshelf hinside
            · exact .fails hb (.inr hnext)

end Atlas

namespace Packing
variable {p : Packing} {op : AtlasOp}

/-- The rectangles lie in rows of the texture, and no two of them share a pixel. -/
structure Packed (size : Int) (p : Packing) : Prop where
  fits : p.atlas.Fits size
  stores : p.atlas.shelf.Stores p.placed
  inside : ∀ r ∈ p.placed, r.Inside ⟨0, 0, size, size⟩

theorem Packed.step (hsize : size < 2 ^ 30) (hp : p.Packed size)
    (hop : ∀ g, op = .insert g → g.Sized) : (p.step op).Packed size := by
  cases op with
  | clear => exact ⟨Atlas.clear_fits hp.fits.width hp.fits.height, .empty _, fun r hr => nomatch hr⟩
  | insert g =>
      have hrow : ∀ s, s = p.atlas.shelf ∨ s = p.atlas.shelf.next → s.Stores p.placed := by
        intro s hs
        rcases hs with rfl | rfl
        · exact hp.stores
        · exact hp.stores.next hp.fits.tallest
      have hinsert := hp.fits.insert hsize (hop g rfl)
      show (receive p.placed (p.atlas.insert g)).Packed size
      generalize p.atlas.insert g = r at hinsert
      cases hinsert with
      | fails hb hs => exact ⟨hb, hrow _ hs, hp.inside⟩
      | @places s glyph b hb hs huv hshelf hinside =>
          refine ⟨hb, ?_, ?_⟩
          · show b.shelf.Stores (glyph.uv :: p.placed)
            rw [hshelf, huv]
            exact (hrow s hs).put (hop g rfl).width
          · intro r hr
            rcases List.mem_cons.mp hr with rfl | hr
            · unfold Atlas.texture at hinside
              rwa [hb.width, hb.height] at hinside
            · exact hp.inside r hr

theorem run_packed (hsize : size < 2 ^ 30) {ops : List AtlasOp}
    (hops : ∀ g, .insert g ∈ ops → g.Sized) (ha : a.Fits size) : (run a ops).Packed size := by
  suffices ∀ p : Packing, p.Packed size → (ops.foldl Packing.step p).Packed size from
    this ⟨a, []⟩ ⟨ha, .empty _, fun r hr => nomatch hr⟩
  induction ops with
  | nil =>
      intro p hp
      exact hp
  | cons op ops ih =>
      intro p hp
      apply ih
      · intro g hg
        exact hops g (List.mem_cons_of_mem op hg)
      · exact hp.step hsize fun g hg => hops g (hg ▸ List.mem_cons_self)

/-- Rectangles that an atlas hands out until it is cleared share no pixel and lie in its texture;
a failed insertion hands out none. -/
theorem run_disjoint (size : Int) (hsize : size < 2 ^ 30) (isGlesContext : Bool) (id : Nat)
    (ops : List AtlasOp) (hops : ∀ g, .insert g ∈ ops → g.Sized) :
    let p := run (.new size isGlesContext id) ops
    (p.placed.Pairwise fun r s => Disjoint r.pixels s.pixels) ∧
      (∀ r ∈ p.placed, r.Inside p.atlas.texture) ∧
      ∀ g e, (p.atlas.insert g).1 = .error e → (p.step (.insert g)).placed = p.placed := by
  intro p
  have hp : p.Packed size := run_packed hsize hops (Atlas.new_fits size isGlesContext id)
  refine ⟨hp.stores.disjoint, ?_, ?_⟩
  · intro r hr
    unfold Atlas.texture
    rw [hp.fits.width, hp.fits.height]
    exact hp.inside r hr
  · intro g e he
    show (receive p.placed (p.atlas.insert g)).placed = p.placed
    generalize p.atlas.insert g = r at he
    obtain ⟨result, a⟩ := r
    obtain rfl : result = .error e := he
    rfl

/-- Two glyphs of different rows, after one that is too large. -/
theorem run_disjoint_rows :
    let p := run (.new atlasSize false 1) [.insert ⟨600, 10, 10, 0, .rgb⟩,
      .insert ⟨10, 2000, 0, 0, .rgb⟩, .insert ⟨600, 20, 20, 0, .rgb⟩]
    p.placed = [⟨0, 10, 600, 20⟩, ⟨0, 0, 600, 10⟩] ∧
      p.placed.Pairwise fun r s => Disjoint r.pixels s.pixels := by
  refine ⟨by decide, (run_disjoint atlasSize (by decide) false 1 _ ?_).1⟩
  intro g hg
  simp only [List.mem_cons, AtlasOp.insert.injEq, List.not_mem_nil, or_false] at hg
  rcases hg with rfl | rfl | rfl
  · exact ⟨by decide, by decide⟩
  · exact ⟨by decide, by decide⟩
  · exact ⟨by decide, by decide⟩

end Packing
end Velacritty

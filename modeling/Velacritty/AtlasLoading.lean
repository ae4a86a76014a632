import Velacritty.AtlasPacking
import Velacritty.Fallible

/-! Loading glyphs into the atlases, and creating new ones. -/
namespace Velacritty
open Fallible
namespace Atlas
variable {genTextures : List Atlas → Nat} {g : RasterizedGlyph} {a : Atlas} {size : Int}

/-- One call that loads a glyph into the current atlas, up to the call for the next one. -/
def tryLoad (genTextures : List Atlas → Nat) (rasterized : RasterizedGlyph) :
    List Atlas × Nat → Option ((Glyph × List Atlas × Nat) ⊕ List Atlas × Nat)
  | (atlas, currentAtlas) => do
      let a ← atlas[currentAtlas]?
      match a.insert rasterized with
      | (.ok glyph, a) => some (.inl (glyph, atlas.set currentAtlas a, currentAtlas))
      | (.error .full, a) =>
          let atlas := atlas.set currentAtlas a
          if currentAtlas + 1 = atlas.length then
            let new := Atlas.new atlasSize a.isGlesContext (genTextures atlas)
            some (.inr (atlas ++ [new], currentAtlas + 1))
          else some (.inr (atlas, currentAtlas + 1))
      | (.error .glyphTooLarge, a) =>
          some (.inl (⟨a.id, false, 0, 0, 0, 0, ⟨0, 0, 0, 0⟩⟩, atlas.set currentAtlas a, currentAtlas))

/-- Load a glyph into a texture atlas. If the current atlas is full, a new one will be created;
`genTextures` names its texture. -/
def loadGlyph (genTextures : List Atlas → Nat) (rasterized : RasterizedGlyph) (fuel : Nat)
    (atlas : List Atlas) (currentAtlas : Nat) : Option (Glyph × List Atlas × Nat) :=
  Fallible.loop (tryLoad genTextures rasterized) fuel (atlas, currentAtlas)

def Reachable (a : Atlas) : Prop :=
  ∃ isGlesContext id ops, (∀ g, .insert g ∈ ops → g.Sized) ∧
    a = (Packing.run (.new atlasSize isGlesContext id) ops).atlas

theorem Reachable.fits (h : a.Reachable) : a.Fits atlasSize := by
  obtain ⟨isGlesContext, id, ops, hops, rfl⟩ := h
  have hsize : atlasSize < 2 ^ 30 := by decide
  exact (Packing.run_packed hsize hops (new_fits atlasSize isGlesContext id)).fits

/-- The glyph is loaded, and at most one atlas is created for it. -/
def Loads (genTextures : List Atlas → Nat) (g : RasterizedGlyph) (atlas : List Atlas)
    (currentAtlas : Nat) : Prop :=
  ∃ fuel glyph atlas' current', loadGlyph genTextures g fuel atlas currentAtlas =
    some (glyph, atlas', current') ∧ atlas'.length ≤ atlas.length + 1

def AsTall (g : RasterizedGlyph) : Prop := g.width ≤ atlasSize ∧ g.height = atlasSize

instance (g : RasterizedGlyph) : Decidable (AsTall g) :=
  inferInstanceAs (Decidable (g.width ≤ atlasSize ∧ g.height = atlasSize))

theorem atlasSize_lt : atlasSize < 2 ^ 30 := by decide

theorem Fits.roomInRow_asTall (ha : a.Fits atlasSize) (hg : g.Sized) (htall : AsTall g) :
    a.roomInRow g = false := by
  apply Bool.eq_false_of_not_eq_true
  intro hroom
  have hbaseline := ha.baseline
  obtain ⟨-, hheight⟩ := (ha.roomInRow_iff atlasSize_lt (by decide) hg htall.1).mp hroom
  have := htall.2
  omega

/-- Such a glyph finds every atlas full. -/
theorem Fits.insert_asTall (ha : a.Fits atlasSize) (hg : g.Sized) (htall : AsTall g) :
    ∃ b, a.insert g = (.error .full, b) ∧ b.Fits atlasSize := by
  have hsmall : ¬ (a.width < g.width ∨ a.height < g.height) := by
    rw [ha.width, ha.height, htall.2]
    have := htall.1
    omega
  unfold Atlas.insert
  rw [if_neg hsmall, ha.roomInRow_asTall hg htall]
  simp only [Bool.false_eq_true, if_false]
  cases hrow : a.advanceRow with
  | none => exact ⟨a, rfl, ha⟩
  | some b =>
      have hb := (ha.advanceRow atlasSize_lt (by decide) hrow).1
      refine ⟨b, ?_, hb⟩
      simp only [hb.roomInRow_asTall hg htall, Bool.false_eq_true, if_false]

/-- Any other glyph finds room in a new atlas, or is too large for one. -/
theorem insert_new (hg : g.Sized) (htall : ¬ AsTall g) (isGlesContext : Bool) (id : Nat) :
    ((new atlasSize isGlesContext id).insert g).1 ≠ .error .full := by
  have hfits := new_fits atlasSize isGlesContext id
  unfold Atlas.insert
  split
  · exact nofun
  · next hsmall =>
      have hwidth : g.width ≤ atlasSize := by
        apply Int.not_lt.mp
        exact fun hlarge => hsmall (.inl hlarge)
      have hheight : g.height ≤ atlasSize := by
        apply Int.not_lt.mp
        exact fun hlarge => hsmall (.inr hlarge)
      have hroom : (new atlasSize isGlesContext id).roomInRow g = true := by
        apply (hfits.roomInRow_iff atlasSize_lt (by decide) hg hwidth).mpr
        constructor
        · exact (Int.zero_add g.width).trans_le hwidth
        · rw [show atlasSize - (new atlasSize isGlesContext id).rowBaseline = atlasSize from rfl]
          exact Int.lt_iff_le_and_ne.mpr ⟨hheight, fun heq => htall ⟨hwidth, heq⟩⟩
      simp only [hroom, if_true]
      exact nofun

structure Ready (s : List Atlas × Nat) : Prop where
  fits : ∀ a ∈ s.1, a.Fits atlasSize
  current : s.2 < s.1.length

theorem Ready.atlas {s : List Atlas × Nat} (hs : Ready s) :
    ∃ a, s.1[s.2]? = some a ∧ a.Fits atlasSize := by
  have hget : s.1[s.2]? = some (s.1.get ⟨s.2, hs.current⟩) := List.getElem?_eq_getElem hs.current
  exact ⟨_, hget, hs.fits _ (List.mem_of_getElem? hget)⟩

/-- A call that finds the current atlas full goes on with the next one. -/
theorem Ready.goes_on (genTextures : List Atlas → Nat) {s : List Atlas × Nat} (hs : Ready s) {b : Atlas} (hb : b.Fits atlasSize)
    (hget : s.1[s.2]? = some a) (hfull : a.insert g = (.error .full, b)) :
    ∃ t, tryLoad genTextures g s = some (.inr t) ∧ Ready t ∧ t.2 = s.2 + 1 ∧
      (t.1.length = s.1.length ∨ s.2 + 1 = s.1.length ∧
        ∃ isGlesContext id, t.1 = s.1.set s.2 b ++ [new atlasSize isGlesContext id]) := by
  obtain ⟨atlas, currentAtlas⟩ := s
  have hcurrent : currentAtlas < atlas.length := hs.current
  have hget : atlas[currentAtlas]? = some a := hget
  have hset : ∀ a ∈ atlas.set currentAtlas b, a.Fits atlasSize := by
    intro a ha
    rcases List.mem_or_eq_of_mem_set ha with ha | rfl
    · exact hs.fits a ha
    · exact hb
  simp only [tryLoad, hget, Option.bind_eq_bind, Option.bind_some, hfull, List.length_set]
  split
  · next hlast =>
      refine ⟨_, rfl, ⟨?_, ?_⟩, rfl, .inr ⟨hlast, _, _, rfl⟩⟩
      · intro a ha
        rcases List.mem_append.mp ha with ha | ha
        · exact hset a ha
        · rw [List.mem_singleton.mp ha]
          exact new_fits ..
      · simp only [List.length_append, List.length_set, List.length_singleton]
        omega
  · next hnext =>
      refine ⟨_, rfl, ⟨hset, ?_⟩, rfl, .inl (List.length_set ..)⟩
      simp only [List.length_set]
      omega

theorem loadGlyph_diverges (hg : g.Sized) (htall : AsTall g) {atlas : List Atlas}
    {currentAtlas : Nat} (hs : Ready (atlas, currentAtlas)) (fuel : Nat) :
    loadGlyph genTextures g fuel atlas currentAtlas = none := by
  apply loop_diverges (P := Ready) hs
  intro s hs
  obtain ⟨a, hget, ha⟩ := hs.atlas
  obtain ⟨b, hfull, hb⟩ := ha.insert_asTall hg htall
  obtain ⟨t, ht, hready, -⟩ := hs.goes_on genTextures hb hget hfull
  exact ⟨t, ht, hready⟩

/-- None of the `n` atlases was created yet, or the current one was. -/
structure Pending (n : Nat) (s : List Atlas × Nat) : Prop where
  ready : Ready s
  created : s.1.length = n ∨ s.2 = n ∧ s.1.length = n + 1 ∧
    ∃ isGlesContext id, s.1[n]? = some (new atlasSize isGlesContext id)

theorem Pending.loads (genTextures : List Atlas → Nat) (hg : g.Sized) (htall : ¬ AsTall g) {n : Nat} {atlas : List Atlas}
    {currentAtlas : Nat} (hs : Pending n (atlas, currentAtlas)) :
    Returns (loadGlyph genTextures g (n + 2) atlas currentAtlas) fun r => r.2.1.length ≤ n + 1 := by
  apply loop_returns (fun s => n + 1 - s.2) hs
  · simp only
    omega
  · rintro ⟨atlas, currentAtlas⟩ hs
    have hlength : atlas.length ≤ n + 1 := by
      rcases hs.created with h | ⟨-, h, -⟩
      · exact Nat.le_succ_of_le h.le
      · exact h.le
    obtain ⟨a, hget, ha⟩ := hs.ready.atlas
    have hget' : atlas[currentAtlas]? = some a := hget
    have hinsert := ha.insert atlasSize_lt hg
    generalize hr : a.insert g = r at hinsert
    cases hinsert with
    | places hb =>
        simp only [tryLoad, hget', Option.bind_eq_bind, Option.bind_some, hr]
        exact .pure ((List.length_set ..).trans_le hlength)
    | @fails e b hb =>
        cases e with
        | glyphTooLarge =>
            simp only [tryLoad, hget', Option.bind_eq_bind, Option.bind_some, hr]
            exact .pure ((List.length_set ..).trans_le hlength)
        | full =>
            have hold : atlas.length = n := by
              rcases hs.created with h | ⟨hn, -, isGlesContext, id, hnew⟩
              · exact h
              · obtain rfl : currentAtlas = n := hn
                obtain rfl := Option.some.inj (hget'.symm.trans hnew)
                exact absurd (congrArg Prod.fst hr) (insert_new hg htall isGlesContext id)
            have hcurrent : currentAtlas < n := hold ▸ hs.ready.current
            obtain ⟨t, ht, hready, hnext, hcreated⟩ := hs.ready.goes_on genTextures hb hget hr
            rw [ht]
            refine .pure ⟨⟨hready, ?_⟩, ?_⟩
            · rcases hcreated with h | ⟨hlast, isGlesContext, id, h⟩
              · exact .inl (h.trans hold)
              · have hset : (atlas.set currentAtlas b).length = n := (List.length_set ..).trans hold
                refine .inr ⟨hnext.trans (hlast.trans hold), ?_, isGlesContext, id, ?_⟩
                · rw [h, List.length_append, List.length_singleton, hset]
                · rw [h, List.getElem?_append_right hset.le, hset, Nat.sub_self]
                  rfl
            · rw [hnext]
              omega

/-- A glyph is loaded, with at most one new atlas, if it is not as tall as an atlas. -/
theorem loads_iff (genTextures : List Atlas → Nat) (g : RasterizedGlyph) (hg : g.Sized)
    (atlas : List Atlas) (hatlas : ∀ a ∈ atlas, a.Reachable) (currentAtlas : Nat)
    (hcurrent : currentAtlas < atlas.length) :
    Loads genTextures g atlas currentAtlas ↔ ¬ AsTall g := by
  have hready : Ready (atlas, currentAtlas) := ⟨fun a ha => (hatlas a ha).fits, hcurrent⟩
  constructor
  · rintro ⟨fuel, glyph, atlas', current', hload, -⟩ htall
    rw [loadGlyph_diverges hg htall hready] at hload
    exact nomatch hload
  · intro htall
    obtain ⟨⟨glyph, atlas', current'⟩, hload, hlength⟩ :=
      Pending.loads genTextures hg htall ⟨hready, .inl rfl⟩
    exact ⟨_, glyph, atlas', current', hload, hlength⟩

/-- A big glyph leaves no room for another one in the first atlas: that is loaded into a second
one, which is created. -/
theorem loads_second : ∃ a : Atlas, a.Reachable ∧
    Loads (fun atlas => atlas.length) ⟨500, 700, 600, 0, .rgb⟩ [a] 0 ∧
    (loadGlyph (fun atlas => atlas.length) ⟨500, 700, 600, 0, .rgb⟩ 3 [a] 0).map
      (fun r => (r.2.1.length, r.2.2)) = some (2, 1) := by
  have hreached : ((Packing.run (.new atlasSize false 0) [.insert ⟨900, 800, 700, 0, .rgb⟩]).atlas).Reachable := by
    refine ⟨false, 0, _, fun g hg => ?_, rfl⟩
    cases List.mem_singleton.mp hg
    exact ⟨by decide, by decide⟩
  refine ⟨_, hreached, (loads_iff _ _ ⟨by decide, by decide⟩ _ (fun a ha => ?_) _ (by decide)).mpr (by decide),
    by decide⟩
  rw [List.mem_singleton.mp ha]
  exact hreached

/-- A bitmap of one column that is as tall as an atlas is never loaded. -/
theorem not_loads_column : ¬ Loads (fun atlas => atlas.length) ⟨1, 1024, 1024, 0, .rgba⟩
    [new atlasSize false 0] 0 := by
  rintro ⟨fuel, glyph, atlas', current', hload, -⟩
  have hready : Ready ([new atlasSize false 0], 0) := by
    constructor
    · intro a ha
      rw [List.mem_singleton.mp ha]
      exact new_fits ..
    · decide
  rw [loadGlyph_diverges ⟨by decide, by decide⟩ ⟨by decide, by decide⟩ hready] at hload
  exact nomatch hload

end Atlas
end Velacritty

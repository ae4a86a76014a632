import Mathlib.Data.List.Pairwise
import Velacritty.GlyphCache

/-! The regions of cached glyphs: no two share a pixel of a texture, and a glyph that is cached stays
as it is. -/
namespace Velacritty
open Fallible
variable {genTextures : List Atlas → Nat} {g : RasterizedGlyph} {glyph : Glyph} {loaded : List Glyph}

namespace Atlas
variable {a b : Atlas}

theorem advanceRow_id (h : a.advanceRow = some b) : b.id = a.id := by
  unfold advanceRow at h
  split_ifs at h
  rw [← Option.some.inj h]

/-- An atlas keeps its texture, which is that of the glyphs that it takes. -/
theorem insert_id (a : Atlas) (g : RasterizedGlyph) :
    (a.insert g).2.id = a.id ∧ ∀ glyph, (a.insert g).1 = .ok glyph → glyph.texId = a.id := by
  unfold insert
  split
  · exact ⟨rfl, fun _ h => by cases h⟩
  · split
    · exact ⟨rfl, fun _ h => by cases h⟩
    · rename_i b hrow
      have hid : b.id = a.id := by
        split at hrow
        · rw [← Option.some.inj hrow]
        · exact advanceRow_id hrow
      split
      · refine ⟨hid, fun glyph hglyph => ?_⟩
        rw [← Except.ok.inj hglyph]
        exact hid
      · exact ⟨hid, fun _ h => by cases h⟩

/-- The glyphs of the atlas have rectangles that it handed out, or none. -/
def Holds (a : Atlas) (loaded : List Glyph) : Prop :=
  ∃ placed, Packing.Packed atlasSize ⟨a, placed⟩ ∧
    ∀ glyph ∈ loaded, glyph.texId = a.id → glyph.uv ∈ placed ∨ glyph.uv = ⟨0, 0, 0, 0⟩

theorem holds_new (isGlesContext : Bool) {id : Nat} (h : ∀ glyph ∈ loaded, glyph.texId ≠ id) :
    (new atlasSize isGlesContext id).Holds loaded :=
  ⟨[], ⟨new_fits atlasSize isGlesContext id, .empty _, fun _ h => absurd h List.not_mem_nil⟩, fun glyph hglyph hid =>
    absurd hid (h glyph hglyph)⟩

theorem Holds.cons_other (h : a.Holds loaded) (hid : glyph.texId ≠ a.id) : a.Holds (glyph :: loaded) := by
  obtain ⟨placed, hpacked, hheld⟩ := h
  refine ⟨placed, hpacked, fun other hother htex => ?_⟩
  rcases List.mem_cons.mp hother with rfl | hother
  · exact absurd htex hid
  · exact hheld other hother htex

/-- What an insertion hands out is apart from what was handed out. -/
structure Places (a b : Atlas) (glyph : Glyph) (loaded : List Glyph) : Prop where
  id : b.id = a.id
  tex : glyph.texId = a.id
  holds : b.Holds (glyph :: loaded)
  apart : ∀ other ∈ loaded, glyph.texId = other.texId → glyph.uv.Apart other.uv

theorem apart_empty {r : Rect} (h : r = ⟨0, 0, 0, 0⟩ ∨ r.Inside ⟨0, 0, atlasSize, atlasSize⟩) :
    (⟨0, 0, 0, 0⟩ : Rect).Apart r ∧ r.Apart ⟨0, 0, 0, 0⟩ := by
  rcases h with rfl | h
  · exact ⟨.inl (Int.le_refl _), .inl (Int.le_refl _)⟩
  · exact ⟨.inl h.left, .inr (.inl h.left)⟩

theorem Holds.insert (h : a.Holds loaded) (hg : g.Sized) {e : Except AtlasInsertError Glyph}
    (hinsert : a.insert g = (e, b)) :
    b.id = a.id ∧ b.Holds loaded ∧ ∀ glyph, e = .ok glyph → a.Places b glyph loaded := by
  obtain ⟨placed, hpacked, hheld⟩ := h
  obtain ⟨hid, htex⟩ := insert_id a g
  have hsized : ∀ g', AtlasOp.insert g = .insert g' → g'.Sized := fun g' hg' => by
    rw [← AtlasOp.insert.inj hg']
    exact hg
  have hstep : (Packing.receive placed (a.insert g)).Packed atlasSize := hpacked.step atlasSize_lt hsized
  rw [hinsert] at hid htex hstep
  have hheld' : ∀ other ∈ loaded, other.texId = b.id → other.uv ∈ placed ∨ other.uv = ⟨0, 0, 0, 0⟩ :=
    fun other hother hother' => hheld other hother (hother'.trans hid)
  cases e with
  | error e => exact ⟨hid, ⟨placed, hstep, hheld'⟩, fun _ h => by cases h⟩
  | ok glyph =>
      have hnew := htex glyph rfl
      refine ⟨hid, ⟨glyph.uv :: placed, hstep, fun other hother htex => ?_⟩, fun glyph' hglyph => ?_⟩
      · exact (hheld' other hother htex).imp (List.mem_cons_of_mem _) fun hempty => hempty
      · obtain rfl := Except.ok.inj hglyph
        refine ⟨hid, hnew, ⟨glyph.uv :: placed, hstep, fun other hother htex => ?_⟩, fun other hother htex => ?_⟩
        · rcases List.mem_cons.mp hother with rfl | hother
          · exact .inl List.mem_cons_self
          · exact (hheld' other hother htex).imp (List.mem_cons_of_mem _) fun hempty => hempty
        · rcases hheld other hother (htex.symm.trans hnew) with hother | hother
          · exact (List.pairwise_cons.mp hstep.stores.apart).1 _ hother
          · rw [hother]
            exact (apart_empty (.inr (hstep.inside _ List.mem_cons_self))).2

/-- A glyph that is too large gets no pixels. -/
theorem Holds.places_empty (h : b.Holds loaded) (hid : b.id = a.id) :
    a.Places b ⟨b.id, false, 0, 0, 0, 0, ⟨0, 0, 0, 0⟩⟩ loaded := by
  obtain ⟨placed, hpacked, hheld⟩ := h
  refine ⟨hid, hid, ⟨placed, hpacked, fun other hother htex => ?_⟩, fun other hother htex => ?_⟩
  · rcases List.mem_cons.mp hother with rfl | hother
    · exact .inr rfl
    · exact hheld other hother htex
  · refine (apart_empty ?_).1
    rcases hheld other hother htex.symm with hother | hother
    · exact .inr (hpacked.inside _ hother)
    · exact .inl hother

end Atlas

namespace LoaderApi
variable {l l' : LoaderApi}

/-- The atlases have different textures, which hold the loaded glyphs apart from each other, and the
renderer knows what is bound. -/
structure Owned (l : LoaderApi) (loaded : List Glyph) : Prop where
  current : l.currentAtlas < l.atlas.length
  bound : l.activeTex = l.boundTex
  ids : ∀ (i j : Nat) (a b : Atlas), l.atlas[i]? = some a → l.atlas[j]? = some b → a.id = b.id → i = j
  holds : ∀ a ∈ l.atlas, a.Holds loaded
  known : ∀ glyph ∈ loaded, ∃ a ∈ l.atlas, a.id = glyph.texId
  apart : loaded.Pairwise fun g h => g.texId = h.texId → g.uv.Apart h.uv

theorem new_owned (isGlesContext : Bool) (id : Nat) : (new isGlesContext id).Owned [] where
  current := Nat.one_pos
  bound := rfl
  ids i j a b hi hj _ := by
    have hi' := (List.getElem?_eq_some_iff.mp hi).1
    have hj' := (List.getElem?_eq_some_iff.mp hj).1
    exact (Nat.lt_one_iff.mp hi').trans (Nat.lt_one_iff.mp hj').symm
  holds a ha := by
    rw [List.mem_singleton.mp ha]
    exact Atlas.holds_new isGlesContext fun _ h => absurd h List.not_mem_nil
  known _ h := absurd h List.not_mem_nil
  apart := .nil

theorem Owned.clear (h : l.Owned loaded) : l.clear.Owned [] where
  current := by
    rw [LoaderApi.clear, List.length_map]
    exact Nat.zero_lt_of_lt h.current
  bound := h.bound
  ids i j a b hi hj hid := by
    simp only [LoaderApi.clear, List.getElem?_map, Option.map_eq_some_iff] at hi hj
    obtain ⟨a, ha, rfl⟩ := hi
    obtain ⟨b, hb, rfl⟩ := hj
    exact h.ids i j a b ha hb hid
  holds a ha := by
    obtain ⟨a, hmem, rfl⟩ := List.mem_map.mp ha
    obtain ⟨placed, hpacked, -⟩ := h.holds a hmem
    have hfits := Atlas.clear_fits hpacked.fits.width hpacked.fits.height
    exact ⟨[], ⟨hfits, .empty _, fun _ h => absurd h List.not_mem_nil⟩, fun _ h => absurd h List.not_mem_nil⟩
  known _ h := absurd h List.not_mem_nil
  apart := .nil

/-- What is at a place after the current atlas was replaced. -/
theorem getElem?_set_cases {atlas : List Atlas} {i j : Nat} {a b : Atlas} (h : (atlas.set i b)[j]? = some a) :
    j = i ∧ a = b ∨ j ≠ i ∧ atlas[j]? = some a := by
  rw [List.getElem?_set] at h
  split at h
  · rename_i hij
    split at h
    · exact .inl ⟨hij.symm, (Option.some.inj h).symm⟩
    · cases h
  · rename_i hij
    exact .inr ⟨fun heq => hij heq.symm, h⟩

section
variable {a b : Atlas} (h : l.Owned loaded) (ha : l.atlas[l.currentAtlas]? = some a)
include h ha

/-- An atlas that replaces the current one keeps its texture. -/
theorem Owned.ids_set (hid : b.id = a.id) (i j : Nat) (a' b' : Atlas)
    (hi : (l.atlas.set l.currentAtlas b)[i]? = some a') (hj : (l.atlas.set l.currentAtlas b)[j]? = some b')
    (heq : a'.id = b'.id) : i = j := by
  rcases getElem?_set_cases hi with ⟨rfl, rfl⟩ | ⟨-, hold⟩
  · rcases getElem?_set_cases hj with ⟨rfl, rfl⟩ | ⟨-, hj⟩
    · rfl
    · exact h.ids _ _ _ _ ha hj (hid.symm.trans heq)
  · rcases getElem?_set_cases hj with ⟨rfl, rfl⟩ | ⟨-, hj⟩
    · exact h.ids _ _ _ _ hold ha (heq.trans hid)
    · exact h.ids _ _ _ _ hold hj heq

theorem Owned.known_set (hid : b.id = a.id) {glyph : Glyph} (hglyph : ∃ a ∈ l.atlas, a.id = glyph.texId) :
    ∃ a ∈ l.atlas.set l.currentAtlas b, a.id = glyph.texId := by
  obtain ⟨c, hc, htex⟩ := hglyph
  obtain ⟨i, hi⟩ := List.mem_iff_getElem?.mp hc
  by_cases hcurrent : i = l.currentAtlas
  · subst hcurrent
    obtain rfl := Option.some.inj (ha.symm.trans hi)
    exact ⟨b, List.mem_set h.current b, hid.trans htex⟩
  · refine ⟨c, List.mem_of_getElem? (i := i) ?_, htex⟩
    rw [List.getElem?_set_ne (Ne.symm hcurrent), hi]

theorem Owned.places (hplaces : a.Places b glyph loaded) {activeTex boundTex : Nat}
    (hbound : activeTex = boundTex) :
    ({ l with atlas := l.atlas.set l.currentAtlas b, activeTex, boundTex } : LoaderApi).Owned
      (glyph :: loaded) where
  current := by
    rw [List.length_set]
    exact h.current
  bound := hbound
  ids := h.ids_set ha hplaces.id
  holds c hc := by
    obtain ⟨i, hi⟩ := List.mem_iff_getElem?.mp hc
    rcases getElem?_set_cases hi with ⟨-, rfl⟩ | ⟨hne, hi⟩
    · exact hplaces.holds
    · refine (h.holds c (List.mem_of_getElem? hi)).cons_other fun htex => hne ?_
      exact (h.ids _ _ _ _ ha hi (hplaces.tex.symm.trans htex)).symm
  known other hother := by
    rcases List.mem_cons.mp hother with rfl | hother
    · exact ⟨b, List.mem_set h.current b, hplaces.id.trans hplaces.tex.symm⟩
    · exact h.known_set ha hplaces.id (h.known other hother)
  apart := .cons hplaces.apart h.apart

theorem Owned.advances (hid : b.id = a.id) (hb : b.Holds loaded)
    (hnext : l.currentAtlas + 1 < l.atlas.length) :
    ({ l with
      atlas := l.atlas.set l.currentAtlas b
      currentAtlas := l.currentAtlas + 1 } : LoaderApi).Owned loaded where
  current := by
    rw [List.length_set]
    exact hnext
  bound := h.bound
  ids := h.ids_set ha hid
  holds c hc := by
    rcases List.mem_or_eq_of_mem_set hc with hc | rfl
    · exact h.holds c hc
    · exact hb
  known other hother := h.known_set ha hid (h.known other hother)
  apart := h.apart

theorem Owned.creates (hid : b.id = a.id) (hb : b.Holds loaded) (isGlesContext : Bool) {id : Nat}
    (hfresh : ∀ a ∈ l.atlas.set l.currentAtlas b, id ≠ a.id) (hlast : l.currentAtlas + 1 = l.atlas.length) :
    Owned ⟨0, l.atlas.set l.currentAtlas b ++ [Atlas.new atlasSize isGlesContext id], l.currentAtlas + 1, 0⟩
      loaded where
  current := by
    simp only [List.length_append, List.length_set, List.length_singleton, hlast]
    exact Nat.lt_succ_self _
  bound := rfl
  ids i j a' b' hi hj heq := by
    have hplace (i : Nat) (c : Atlas)
        (hi : (l.atlas.set l.currentAtlas b ++ [Atlas.new atlasSize isGlesContext id])[i]? = some c) :
        (l.atlas.set l.currentAtlas b)[i]? = some c ∨ i = l.atlas.length ∧ c.id = id := by
      rw [List.getElem?_append, List.length_set] at hi
      split at hi
      · exact .inl hi
      · obtain ⟨hlt, hc⟩ := List.getElem?_eq_some_iff.mp hi
        rw [List.length_singleton] at hlt
        refine .inr ⟨by omega, ?_⟩
        rw [List.mem_singleton.mp (List.mem_of_getElem? hi)]
        rfl
    rcases hplace i a' hi with hold | ⟨rfl, hnew⟩
    · rcases hplace j b' hj with hold' | ⟨-, hnew'⟩
      · exact h.ids_set ha hid i j a' b' hold hold' heq
      · exact absurd (hnew'.symm.trans heq.symm) (hfresh a' (List.mem_of_getElem? hold))
    · rcases hplace j b' hj with hold' | ⟨rfl, -⟩
      · exact absurd (hnew.symm.trans heq) (hfresh b' (List.mem_of_getElem? hold'))
      · rfl
  holds c hc := by
    rcases List.mem_append.mp hc with hc | hc
    · rcases List.mem_or_eq_of_mem_set hc with hc | rfl
      · exact h.holds c hc
      · exact hb
    · rw [List.mem_singleton.mp hc]
      refine Atlas.holds_new isGlesContext fun other hother htex => ?_
      obtain ⟨c, hc, hcid⟩ := h.known_set ha hid (h.known other hother)
      exact hfresh c hc (htex.symm.trans hcid.symm)
  known other hother := by
    obtain ⟨c, hc, hcid⟩ := h.known_set ha hid (h.known other hother)
    exact ⟨c, List.mem_append_left _ hc, hcid⟩
  apart := h.apart

end

/-- OpenGL names no texture twice. -/
def Fresh (genTextures : List Atlas → Nat) : Prop := ∀ atlas, ∀ a ∈ atlas, genTextures atlas ≠ a.id

theorem tryLoad_owned (hfresh : Fresh genTextures) (hg : g.Sized) (h : l.Owned loaded) :
    Returns (l.tryLoad genTextures g)
      (Sum.elim (fun r => r.2.Owned (r.1 :: loaded)) fun l' => l'.Owned loaded) := by
  obtain ⟨a, ha⟩ : ∃ a, l.atlas[l.currentAtlas]? = some a := ⟨_, List.getElem?_eq_getElem h.current⟩
  obtain ⟨e, b, hinsert⟩ : ∃ e b, a.insert g = (e, b) := ⟨_, _, rfl⟩
  obtain ⟨hid, hb, hplaces⟩ := (h.holds a (List.mem_of_getElem? ha)).insert hg hinsert
  simp only [tryLoad, ha, hinsert, Option.bind_eq_bind, Option.bind_some]
  cases e with
  | ok glyph => exact .pure (h.places ha (hplaces glyph rfl) rfl)
  | error e =>
      cases e with
      | full =>
          simp only [List.length_set]
          split
          · rename_i hlast
            exact .pure (h.creates ha hid hb _ (hfresh _) hlast)
          · exact .pure (h.advances ha hid hb (by have := h.current; omega))
      | glyphTooLarge =>
          exact .pure (h.places ha (hb.places_empty hid) h.bound)

theorem loadGlyph_atlas (genTextures : List Atlas → Nat) (g : RasterizedGlyph) (l : LoaderApi) :
    Atlas.loadGlyph genTextures g (l.atlas.length + 2) l.atlas l.currentAtlas =
      (l.loadGlyph genTextures g).map fun r => (r.1, r.2.atlas, r.2.currentAtlas) := by
  refine loop_map (fun l : LoaderApi => (l.atlas, l.currentAtlas)) _ (fun l => ?_) _ l
  simp only [Atlas.tryLoad, tryLoad, Option.bind_eq_bind]
  cases l.atlas[l.currentAtlas]? with
  | none => rfl
  | some a =>
      simp only [Option.bind_some]
      obtain ⟨e, b, hinsert⟩ : ∃ e b, a.insert g = (e, b) := ⟨_, _, rfl⟩
      rw [hinsert]
      cases e with
      | ok glyph => rfl
      | error e =>
          cases e with
          | full =>
              dsimp only
              split <;> rfl
          | glyphTooLarge => rfl

theorem loadGlyph_owned (hfresh : Fresh genTextures) (hg : g.Sized) (h : l.Owned loaded) :
    ReturnsIf (¬ Atlas.AsTall g) (l.loadGlyph genTextures g) fun r => r.2.Owned (r.1 :: loaded) := by
  refine ⟨fun htall => ?_, ?_⟩
  · have hready : Atlas.Ready (l.atlas, l.currentAtlas) := by
      refine ⟨fun a ha => ?_, h.current⟩
      obtain ⟨placed, hpacked, -⟩ := h.holds a ha
      exact hpacked.fits
    have hpending : Atlas.Pending l.atlas.length (l.atlas, l.currentAtlas) := ⟨hready, .inl rfl⟩
    have hloads := (hpending.loads genTextures hg htall).isSome
    rw [loadGlyph_atlas, Option.isSome_map] at hloads
    exact hloads
  · exact loop_allows (P := fun l => l.Owned loaded) h fun l h => (tryLoad_owned hfresh hg h).allows

end LoaderApi

/-- What is relied on: OpenGL's names are new ones, and no bitmap has a negative size. -/
structure Rasterizer.Sane {F S : Type} (r : Rasterizer F S) : Prop where
  fresh : LoaderApi.Fresh r.genTextures
  getGlyph : ∀ key b, r.getGlyph key = .ok b → b.glyph.Sized
  missingGlyph : ∀ key b, r.getGlyph key = .error (.missingGlyph b) → b.glyph.Sized
  builtinGlyph : ∀ character b, r.builtinGlyph character = some b → b.glyph.Sized

theorem Bitmap.empty_sized : Bitmap.empty.glyph.Sized := ⟨Int.le_refl 0, Int.le_refl 0⟩

namespace GlyphCache
variable {F S : Type} [DecidableEq F] [DecidableEq S] {c c' c'' : GlyphCache F S} {r : Rasterizer F S}
  {l l' : LoaderApi} {key : GlyphKey F S}

/-- The textures hold every cached glyph. -/
def Held (c : GlyphCache F S) (l : LoaderApi) : Prop :=
  ∃ loaded, l.Owned loaded ∧ ∀ x ∈ c.cache, x.2 ∈ loaded

/-- More glyphs are cached, and nothing else differs. -/
structure Grows (c c' : GlyphCache F S) : Prop where
  rest : c' = { c with cache := c'.cache }
  kept : ∀ key glyph, c.cache.lookup key = some glyph → c'.cache.lookup key = some glyph

theorem Grows.refl (c : GlyphCache F S) : c.Grows c := ⟨rfl, fun _ _ h => h⟩

theorem Grows.trans (h : c.Grows c') (h' : c'.Grows c'') : c.Grows c'' := by
  refine ⟨?_, fun key glyph hkey => h'.kept key glyph (h.kept key glyph hkey)⟩
  rw [h'.rest, h.rest]

theorem Grows.insert (c : GlyphCache F S) (hnone : c.cache.lookup key = none) (glyph : Glyph) :
    c.Grows { c with cache := OrderedMap.insert key glyph c.cache } := by
  refine ⟨rfl, fun key' glyph' hkey => ?_⟩
  have hne : key' ≠ key := by
    rintro rfl
    rw [hnone] at hkey
    cases hkey
  exact (OrderedMap.lookup_insert_ne hne glyph c.cache).trans hkey

theorem insert_loaded {loaded : List Glyph} (h : ∀ x ∈ c.cache, x.2 ∈ loaded) {glyph : Glyph}
    (hglyph : glyph ∈ loaded) :
    ∀ x ∈ ({ c with cache := OrderedMap.insert key glyph c.cache } : GlyphCache F S).cache, x.2 ∈ loaded := by
  intro x hx
  rcases OrderedMap.mem_insert hx with rfl | hx
  · exact hglyph
  · exact h x hx

omit [DecidableEq F] [DecidableEq S] in
theorem rasterize_sized (hr : r.Sane) {b : Bitmap}
    (h : c.rasterize r key = .ok b ∨ c.rasterize r key = .error (.missingGlyph b)) : b.glyph.Sized := by
  unfold rasterize at h
  split at h
  · rename_i b' hbuiltin
    rcases h with h | h
    · rw [← Except.ok.inj h]
      split at hbuiltin
      · exact hr.builtinGlyph _ _ hbuiltin
      · cases hbuiltin
    · cases h
  · exact h.elim (hr.getGlyph key b) (hr.missingGlyph key b)

def Short (c : GlyphCache F S) (r : Rasterizer F S) (key : GlyphKey F S) : Prop :=
  ∀ b, c.rasterize r key = .ok b ∨ c.rasterize r key = .error (.missingGlyph b) → ¬ Atlas.AsTall b.glyph

omit [DecidableEq F] [DecidableEq S] in
/-- The transforms of the cache change only where the bitmap is drawn. -/
theorem loadGlyph_owned (hr : r.Sane) {loaded : List Glyph} (h : l.Owned loaded) {b : Bitmap}
    (hb : b.glyph.Sized) :
    ReturnsIf (¬ Atlas.AsTall b.glyph) (c.loadGlyph r l b) fun x => x.2.Owned (x.1 :: loaded) := by
  have hmoved (left top : Int) : ReturnsIf (¬ Atlas.AsTall b.glyph)
      (l.loadGlyph r.genTextures { b.glyph with left, top }) fun x => x.2.Owned (x.1 :: loaded) :=
    LoaderApi.loadGlyph_owned (g := { b.glyph with left, top }) hr.fresh ⟨hb.width, hb.height⟩ h
  exact hmoved _ _

structure Found (c : GlyphCache F S) (x : Glyph × GlyphCache F S × LoaderApi) : Prop where
  held : ∃ loaded, x.2.2.Owned loaded ∧ x.1 ∈ loaded ∧ ∀ y ∈ x.2.1.cache, y.2 ∈ loaded
  grows : c.Grows x.2.1

theorem found_load (hr : r.Sane) (h : c.Held l) {b : Bitmap} (hb : b.glyph.Sized) :
    ReturnsIf (¬ Atlas.AsTall b.glyph) ((c.loadGlyph r l b).map fun (glyph, l) => (glyph, c, l)) c.Found := by
  obtain ⟨loaded, howned, hcache⟩ := h
  refine (loadGlyph_owned (c := c) hr howned hb).map fun x hx => ⟨⟨x.1 :: loaded, hx, List.mem_cons_self,
    fun y hy => ?_⟩, .refl c⟩
  exact List.mem_cons_of_mem _ (hcache y hy)

theorem fetch_found (hr : r.Sane) (h : c.Held l) (key : GlyphKey F S) (showMissing : Bool) :
    ReturnsIf (c.Short r key) (c.fetch r l key showMissing) c.Found := by
  unfold fetch
  split
  · rename_i b hb
    exact (found_load hr h (rasterize_sized hr (.inl hb))).of_imp fun hshort => hshort b (.inl hb)
  · rename_i b hb
    obtain ⟨loaded, howned, hcache⟩ := h
    dsimp only
    split
    · rename_i glyph hmissing
      exact .pure ⟨⟨loaded, howned, hcache _ (OrderedMap.mem_of_lookup hmissing), hcache⟩, .refl c⟩
    · rename_i hmissing
      refine ((loadGlyph_owned (c := c) hr howned (rasterize_sized hr (.inr hb))).map fun x hx => ?_).of_imp
        fun hshort => hshort b (.inr hb)
      refine ⟨⟨x.1 :: loaded, hx, List.mem_cons_self, ?_⟩, .insert c hmissing x.1⟩
      exact insert_loaded (fun y hy => List.mem_cons_of_mem _ (hcache y hy)) List.mem_cons_self
  · exact (found_load hr h Bitmap.empty_sized).of_imp fun _ => by decide

/-- A cached glyph is found again; any other one is loaded, and nothing that is cached changes. -/
theorem get_spec (hr : r.Sane) (h : c.Held l) (key : GlyphKey F S) (showMissing : Bool) :
    ReturnsIf (c.Short r key) (c.get r l key showMissing) fun x =>
      x.2.1.Held x.2.2 ∧ c.Grows x.2.1 ∧ x.2.1.cache.lookup key = some x.1 := by
  unfold get
  cases hlookup : c.cache.lookup key with
  | some glyph => exact .pure ⟨h, .refl c, hlookup⟩
  | none =>
      refine (fetch_found hr h key showMissing).bind ?_
      rintro ⟨glyph, c', l'⟩ ⟨⟨loaded, howned, hmem, hcache⟩, hgrows⟩
      dsimp only [orInsert]
      cases hcached : c'.cache.lookup key with
      | some cached => exact .pure ⟨⟨loaded, howned, hcache⟩, hgrows, hcached⟩
      | none =>
          refine .pure ⟨⟨loaded, howned, insert_loaded hcache hmem⟩,
            hgrows.trans (.insert c' hcached glyph), ?_⟩
          exact OrderedMap.lookup_insert_self key glyph c'.cache

theorem loadGlyphsForFont_held (hr : r.Sane) (h : c.Held l) (font : F) :
    Allows (c.loadGlyphsForFont r l font) fun x => x.1.Held x.2 := by
  intro x hx
  refine foldlM_invariant (P := fun x : GlyphCache F S × LoaderApi => x.1.Held x.2) h ?_ hx
  rintro ⟨c', l'⟩ character x' hheld - hget
  obtain ⟨found, hfound, rfl⟩ := Option.map_eq_some_iff.mp hget
  exact ((get_spec hr hheld _ true).2 found hfound).1

theorem loadCommonGlyphs_held (hr : r.Sane) (h : c.Held l) :
    Allows (c.loadCommonGlyphs r l) fun x => x.1.Held x.2 :=
  (loadGlyphsForFont_held hr h _).bind fun _ h => (loadGlyphsForFont_held hr h _).bind fun _ h =>
    (loadGlyphsForFont_held hr h _).bind fun _ h => loadGlyphsForFont_held hr h _

omit [DecidableEq F] [DecidableEq S] in
theorem clear_held (h : c.Held l) : ({ c with cache := [] } : GlyphCache F S).Held l.clear := by
  obtain ⟨loaded, howned, -⟩ := h
  exact ⟨[], howned.clear, fun _ h => absurd h List.not_mem_nil⟩

theorem resetGlyphCache_held (hr : r.Sane) (h : c.Held l) :
    Allows (c.resetGlyphCache r l) fun x => x.1.Held x.2 :=
  loadCommonGlyphs_held hr (clear_held h)

/-- The same glyph, or one that shares no pixel of a texture. -/
def Separate (g h : Glyph) : Prop := g = h ∨ (g.texId = h.texId → Disjoint g.uv.pixels h.uv.pixels)

theorem Separate.symm {g h : Glyph} (hgh : Separate g h) : Separate h g :=
  hgh.imp Eq.symm fun hdisjoint htex => (hdisjoint htex.symm).symm

omit [DecidableEq F] [DecidableEq S] in
theorem Held.separate (h : c.Held l) : ∀ x ∈ c.cache, ∀ y ∈ c.cache, Separate x.2 y.2 := by
  obtain ⟨loaded, howned, hcache⟩ := h
  have hpairwise : loaded.Pairwise Separate := howned.apart.imp fun hgh => .inr fun htex => (hgh htex).disjoint
  have hsymm : Std.Symm Separate := ⟨fun _ _ => Separate.symm⟩
  exact fun x hx y hy => hpairwise.forall_of_forall (fun _ _ => .inl rfl) (hcache x hx) (hcache y hy)

omit [DecidableEq F] [DecidableEq S] in
theorem Held.inside (h : c.Held l) : ∀ x ∈ c.cache, ∃ a ∈ l.atlas, a.id = x.2.texId ∧
    x.2.uv.Inside a.texture := by
  intro x hx
  obtain ⟨loaded, howned, hcache⟩ := h
  obtain ⟨a, ha, hid⟩ := howned.known _ (hcache x hx)
  obtain ⟨placed, hpacked, hheld⟩ := howned.holds a ha
  refine ⟨a, ha, hid, ?_⟩
  have htexture : a.texture = ⟨0, 0, atlasSize, atlasSize⟩ := by
    rw [Atlas.texture, hpacked.fits.width, hpacked.fits.height]
  rw [htexture]
  rcases hheld _ (hcache x hx) hid.symm with hplaced | hempty
  · exact hpacked.inside _ hplaced
  · rw [hempty]
    exact ⟨Int.le_refl 0, by decide, Int.le_refl 0, by decide⟩

end GlyphCache
end Velacritty

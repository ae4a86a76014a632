import Velacritty.GlyphBatches

/-! Every glyph is drawn once, in the order of the cells and from its own texture. -/
namespace Velacritty
open Fallible

namespace TextRenderBatch
variable {V : Type} (kind : TextRenderBatch V)

def entriesOf (items : List (TextCell × Glyph)) : List V := items.flatMap fun x => kind.entries x.1 x.2

theorem length_entriesOf (items : List (TextCell × Glyph)) :
    (kind.entriesOf items).length = items.length * kind.perItem := by
  rw [entriesOf, List.length_flatMap]
  simp only [kind.length_entries, List.map_const', List.sum_replicate_nat]

theorem entriesOf_append (items : List (TextCell × Glyph)) (cell : TextCell) (glyph : Glyph) :
    kind.entriesOf (items ++ [(cell, glyph)]) = kind.entriesOf items ++ kind.entries cell glyph := by
  rw [entriesOf, List.flatMap_append, List.flatMap_singleton]
  rfl

theorem room {n : Nat} (h : n * kind.perItem < kind.capacity) : (n + 1) * kind.perItem ≤ kind.capacity := by
  obtain ⟨m, hm⟩ := kind.perItem_dvd
  rw [hm, Nat.mul_comm n] at h
  rw [hm, Nat.mul_comm (n + 1)]
  exact Nat.mul_le_mul_left _ (Nat.lt_of_mul_lt_mul_left h)

/-- A call draws exactly some items, all from the texture that is bound. -/
structure Drawn (items : List (TextCell × Glyph)) (call : DrawCall V) : Prop where
  ne : items ≠ []
  vertices : call.vertices = kind.entriesOf items
  tex : ∀ x ∈ items, x.2.texId = call.tex
  fits : call.vertices.length ≤ kind.capacity

end TextRenderBatch

namespace GlyphCache
variable {F S : Type} {c c' : GlyphCache F S} {l : LoaderApi}

theorem Held.bind (h : c.Held l) (tex : Nat) : c.Held { l with boundTex := tex, activeTex := tex } := by
  obtain ⟨loaded, howned, hcache⟩ := h
  exact ⟨loaded, ⟨howned.current, rfl, howned.ids, howned.holds, howned.known, howned.apart⟩, hcache⟩

def requests (c : GlyphCache F S) (cell : TextCell) : List (TextCell × GlyphKey F S) :=
  (cell.shown.character :: cell.marks).map fun character =>
    (cell.shown, ⟨character, c.fontKeyOf cell.flags, c.fontSize⟩)

variable [DecidableEq F] [DecidableEq S]

theorem Grows.requests (h : c.Grows c') : c'.requests = c.requests := by
  rw [h.rest]
  rfl

/-- What is cached does not matter to bitmaps. -/
theorem Grows.short (h : c.Grows c') (r : Rasterizer F S) (key : GlyphKey F S) :
    c.Short r key → c'.Short r key := by
  rw [h.rest]
  exact fun hshort => hshort

end GlyphCache

namespace TextRenderApi
variable {F S V : Type} {kind : TextRenderBatch V} {s : TextRenderApi F S V} {calls : List (DrawCall V)}
  {items : List (TextCell × Glyph)}

structure Holding (kind : TextRenderBatch V) (s : TextRenderApi F S V) (items : List (TextCell × Glyph)) :
    Prop where
  vertices : s.batch.vertices = kind.entriesOf items
  tex : ∀ x ∈ items, x.2.texId = s.batch.tex

/-- The items were drawn in their order after the first calls, or are in the batch, which is not full. -/
def Queued (kind : TextRenderBatch V) (calls : List (DrawCall V)) (s : TextRenderApi F S V)
    (items : List (TextCell × Glyph)) : Prop :=
  ∃ parts last new, items = parts.flatten ++ last ∧ s.calls = calls ++ new ∧
    List.Forall₂ kind.Drawn parts new ∧ Holding kind s last ∧ last.length * kind.perItem < kind.capacity

theorem renderBatch_held (h : s.cache.Held s.loader) :
    (s.renderBatch kind).cache.Held (s.renderBatch kind).loader := by
  unfold renderBatch
  dsimp only
  split
  · exact h.bind _
  · exact h

theorem renderBatch_calls (h : s.cache.Held s.loader) :
    (s.renderBatch kind).calls = s.calls ++ [⟨s.batch.tex, s.batch.vertices⟩] := by
  obtain ⟨loaded, howned, -⟩ := h
  unfold renderBatch
  dsimp only
  split
  · rfl
  · rename_i hactive
    rw [← howned.bound, not_ne_iff.mp hactive]

theorem holding_nil (h : s.batch.vertices = []) : Holding kind s [] :=
  ⟨h, fun _ hx => absurd hx List.not_mem_nil⟩

theorem renderBatch_queued (h : s.cache.Held s.loader) {parts : List (List (TextCell × Glyph))}
    {last : List (TextCell × Glyph)} {new : List (DrawCall V)} (hcalls : s.calls = calls ++ new)
    (hdrawn : List.Forall₂ kind.Drawn parts new) (hlast : Holding kind s last) (hne : last ≠ [])
    (hfits : last.length * kind.perItem ≤ kind.capacity) :
    Queued kind calls (s.renderBatch kind) (parts.flatten ++ last) := by
  have hcall : kind.Drawn last ⟨s.batch.tex, s.batch.vertices⟩ := by
    refine ⟨hne, hlast.vertices, hlast.tex, ?_⟩
    rw [hlast.vertices, kind.length_entriesOf]
    exact hfits
  refine ⟨parts ++ [last], [], new ++ [⟨s.batch.tex, s.batch.vertices⟩], ?_, ?_, ?_, holding_nil rfl, ?_⟩
  · rw [List.flatten_concat, List.append_nil]
  · rw [renderBatch_calls h, hcalls, List.append_assoc]
  · exact List.rel_append hdrawn (.cons hcall .nil)
  · rw [List.length_nil, Nat.zero_mul]
    exact kind.capacity_pos

theorem Queued.of_eq (h : Queued kind calls s items) {s' : TextRenderApi F S V} (hbatch : s'.batch = s.batch)
    (hcalls : s'.calls = s.calls) : Queued kind calls s' items := by
  obtain ⟨parts, last, new, hitems, hnew, hdrawn, hlast, hroom⟩ := h
  refine ⟨parts, last, new, hitems, hcalls.trans hnew, hdrawn, ⟨?_, ?_⟩, hroom⟩
  · rw [hbatch]
    exact hlast.vertices
  · rw [hbatch]
    exact hlast.tex

theorem eq_nil_of_vertices {last : List (TextCell × Glyph)} (h : Holding kind s last)
    (hempty : s.batch.vertices = []) : last = [] := by
  have hlength := kind.length_entriesOf last
  rw [← h.vertices, hempty, List.length_nil] at hlength
  have := kind.perItem_pos
  exact List.length_eq_zero_iff.mp ((Nat.mul_eq_zero.mp hlength.symm).resolve_right (by omega))

theorem ne_nil_of_vertices {last : List (TextCell × Glyph)} (h : Holding kind s last)
    (hne : s.batch.vertices ≠ []) : last ≠ [] := by
  rintro rfl
  exact hne h.vertices

theorem addRenderItem_queued (h : s.cache.Held s.loader) (hqueued : Queued kind calls s items)
    (cell : TextCell) (glyph : Glyph) :
    (s.addRenderItem kind cell glyph).cache.Held (s.addRenderItem kind cell glyph).loader ∧
      Queued kind calls (s.addRenderItem kind cell glyph) (items ++ [(cell, glyph)]) := by
  have hflush : ∃ s₁ : TextRenderApi F S V, (if !s.batch.vertices.isEmpty && s.batch.tex != glyph.texId then
      s.renderBatch kind else s) = s₁ ∧ s₁.cache.Held s₁.loader ∧ Queued kind calls s₁ items ∧
      (s₁.batch.vertices = [] ∨ s₁.batch.tex = glyph.texId) := by
    split
    · rename_i hchange
      obtain ⟨parts, last, new, rfl, hcalls, hdrawn, hlast, hroom⟩ := hqueued
      have hne : s.batch.vertices ≠ [] := by
        intro hempty
        rw [hempty] at hchange
        cases hchange
      exact ⟨_, rfl, renderBatch_held h, renderBatch_queued h hcalls hdrawn hlast (ne_nil_of_vertices hlast hne)
        (Nat.le_of_lt hroom), .inl rfl⟩
    · rename_i hsame
      refine ⟨s, rfl, h, hqueued, ?_⟩
      by_cases hempty : s.batch.vertices = []
      · exact .inl hempty
      · right
        have hisEmpty : s.batch.vertices.isEmpty = false := List.isEmpty_eq_false_iff.mpr hempty
        simpa only [hisEmpty, Bool.not_false, Bool.true_and, bne_iff_ne, ne_eq, not_not] using hsame
  obtain ⟨s₁, hs₁, hheld, ⟨parts, last, new, rfl, hcalls, hdrawn, hlast, hroom⟩, htex⟩ := hflush
  have hadded : Holding kind (s₁.addItem kind cell glyph) (last ++ [(cell, glyph)]) := by
    refine ⟨?_, fun x hx => ?_⟩
    · rw [kind.entriesOf_append, ← hlast.vertices]
      rfl
    · show x.2.texId = if s₁.batch.vertices.isEmpty then glyph.texId else s₁.batch.tex
      rcases List.mem_append.mp hx with hx | hx
      · have hne : s₁.batch.vertices ≠ [] := by
          intro hempty
          rw [eq_nil_of_vertices hlast hempty] at hx
          cases hx
        rw [List.isEmpty_eq_false_iff.mpr hne]
        exact hlast.tex x hx
      · rw [List.mem_singleton.mp hx]
        split
        · rfl
        · rename_i hne
          exact (htex.resolve_left (fun hempty => hne (by rw [hempty]; rfl))).symm
  have hfits := kind.room hroom
  rw [← List.length_concat (a := (cell, glyph)), List.concat_eq_append] at hfits
  have hadd : s.addRenderItem kind cell glyph =
      if (s₁.addItem kind cell glyph).batch.vertices.length = kind.capacity then
        (s₁.addItem kind cell glyph).renderBatch kind
      else s₁.addItem kind cell glyph := by
    rw [← hs₁]
    rfl
  rw [hadd, List.append_assoc]
  split
  · have hheld' : (s₁.addItem kind cell glyph).cache.Held (s₁.addItem kind cell glyph).loader := hheld
    exact ⟨renderBatch_held hheld', renderBatch_queued hheld' hcalls hdrawn hadded (by simp) hfits⟩
  · rename_i hfull
    refine ⟨hheld, parts, _, new, rfl, hcalls, hdrawn, hadded, ?_⟩
    rw [hadded.vertices, kind.length_entriesOf] at hfull
    exact Nat.lt_of_le_of_ne hfits hfull

/-! ### Cells -/

variable [DecidableEq F] [DecidableEq S] {r : Rasterizer F S} {c : GlyphCache F S}
  {requests : List (TextCell × GlyphKey F S)}

structure Drawing (kind : TextRenderBatch V) (calls : List (DrawCall V)) (c : GlyphCache F S)
    (s : TextRenderApi F S V) (requests : List (TextCell × GlyphKey F S)) : Prop where
  held : s.cache.Held s.loader
  grows : c.Grows s.cache
  queued : ∃ items, Queued kind calls s items ∧
    List.Forall₂ (fun q x => x.1 = q.1 ∧ s.cache.cache.lookup q.2 = some x.2) requests items

omit [DecidableEq F] [DecidableEq S] in
theorem addRenderItem_cache (s : TextRenderApi F S V) (cell : TextCell) (glyph : Glyph) :
    (s.addRenderItem kind cell glyph).cache = s.cache := by
  unfold addRenderItem
  dsimp only
  split <;> split <;> rfl

theorem drawGlyph_drawing (hr : r.Sane) (h : Drawing kind calls c s requests) (cell : TextCell)
    (showMissing : Bool) (key : GlyphKey F S) :
    ReturnsIf (c.Short r key) (s.drawGlyph kind r cell showMissing key) fun s' =>
      Drawing kind calls c s' (requests ++ [(cell, key)]) := by
  obtain ⟨items, hqueued, hitems⟩ := h.queued
  refine ((GlyphCache.get_spec hr h.held key showMissing).of_imp (h.grows.short r key)).bind ?_
  rintro ⟨glyph, cache, loader⟩ ⟨hheld, hgrows, hlookup⟩
  obtain ⟨hheld', hqueued'⟩ :=
    addRenderItem_queued (s := { s with cache, loader }) hheld (hqueued.of_eq rfl rfl) cell glyph
  refine .pure ⟨hheld', ?_, _, hqueued', ?_⟩
  · rw [addRenderItem_cache]
    exact h.grows.trans hgrows
  · rw [addRenderItem_cache]
    refine List.rel_append (hitems.imp fun q x hq => ⟨hq.1, hgrows.kept _ _ hq.2⟩) ?_
    exact .cons ⟨rfl, hlookup⟩ .nil

theorem drawGlyphs_drawing (hr : r.Sane) (cell : TextCell) (showMissing : Bool) (keys : List (GlyphKey F S))
    (h : Drawing kind calls c s requests) :
    ReturnsIf (∀ key ∈ keys, c.Short r key) (keys.foldlM (drawGlyph kind r cell showMissing) s) fun s' =>
      Drawing kind calls c s' (requests ++ keys.map fun key => (cell, key)) := by
  induction keys generalizing s requests with
  | nil =>
      rw [List.map_nil, List.append_nil]
      exact .pure h
  | cons key keys ih =>
      rw [List.foldlM_cons]
      refine ((drawGlyph_drawing hr h cell showMissing key).of_imp fun hshort =>
        hshort key List.mem_cons_self).bind fun s' hs' => ?_
      refine ((ih hs').of_imp fun hshort k hk => hshort k (List.mem_cons_of_mem key hk)).mono fun s'' hs'' => ?_
      rwa [List.append_assoc] at hs''

theorem drawCell_drawing (hr : r.Sane) (h : Drawing kind calls c s requests) (cell : TextCell) :
    ReturnsIf (∀ q ∈ c.requests cell, c.Short r q.2) (s.drawCell kind r cell) fun s' =>
      Drawing kind calls c s' (requests ++ c.requests cell) := by
  unfold drawCell
  refine ((drawGlyph_drawing hr h _ _ _).of_imp fun hshort => ?_).bind fun s' hs' =>
    ((drawGlyphs_drawing hr _ _ _ hs').of_imp fun hshort key hkey => ?_).mono fun s'' hs'' => ?_
  · have hfirst := hshort _ List.mem_cons_self
    rw [h.grows.rest]
    exact hfirst
  · obtain ⟨character, hcharacter, rfl⟩ := List.mem_map.mp hkey
    have hmark := hshort _ (List.mem_cons_of_mem _ (List.mem_map_of_mem hcharacter))
    rw [h.grows.rest]
    exact hmark
  · rw [← h.grows.requests]
    rw [List.append_assoc, List.map_map] at hs''
    exact hs''

theorem drawCells_drawing (hr : r.Sane) (cells : List TextCell) (h : Drawing kind calls c s requests) :
    ReturnsIf (∀ q ∈ cells.flatMap c.requests, c.Short r q.2) (cells.foldlM (drawCell kind r) s) fun s' =>
      Drawing kind calls c s' (requests ++ cells.flatMap c.requests) := by
  induction cells generalizing s requests with
  | nil =>
      rw [List.flatMap_nil, List.append_nil]
      exact .pure h
  | cons cell cells ih =>
      rw [List.foldlM_cons, List.flatMap_cons]
      refine ((drawCell_drawing hr h cell).of_imp fun hshort q hq =>
        hshort q (List.mem_append_left _ hq)).bind fun s' hs' => ?_
      refine ((ih hs').of_imp fun hshort q hq => hshort q (List.mem_append_right _ hq)).mono fun s'' hs'' => ?_
      rwa [List.append_assoc] at hs''

/-- Nothing is left to be drawn, and the textures hold what is cached. -/
structure Ready (s : TextRenderApi F S V) : Prop where
  held : s.cache.Held s.loader
  drawn : s.batch.vertices = []

structure Draws (kind : TextRenderBatch V) (cells : List TextCell) (s s' : TextRenderApi F S V) : Prop where
  grows : s.cache.Grows s'.cache
  calls : ∃ parts new, s'.calls = s.calls ++ new ∧ List.Forall₂ kind.Drawn parts new ∧
    List.Forall₂ (fun q x => x.1 = q.1 ∧ s'.cache.cache.lookup q.2 = some x.2)
      (cells.flatMap s.cache.requests) parts.flatten

theorem drawCells_ready (hr : r.Sane) (h : s.Ready) (cells : List TextCell) :
    ReturnsIf (∀ q ∈ cells.flatMap s.cache.requests, s.cache.Short r q.2) (s.drawCells kind r cells) fun s' =>
      s'.Ready ∧ Draws kind cells s s' := by
  have hstart : Drawing kind s.calls s.cache s [] :=
    ⟨h.held, .refl _, [], ⟨[], [], [], rfl, (List.append_nil _).symm, .nil, holding_nil h.drawn, by
      rw [List.length_nil, Nat.zero_mul]
      exact kind.capacity_pos⟩, .nil⟩
  refine (drawCells_drawing hr cells hstart).bind fun s' hs' => .pure ?_
  obtain ⟨items, ⟨parts, last, new, rfl, hcalls, hdrawn, hlast, hroom⟩, hitems⟩ := hs'.queued
  split
  · rename_i hempty
    have hnil := List.isEmpty_iff.mp hempty
    obtain rfl := eq_nil_of_vertices hlast hnil
    rw [List.append_nil] at hitems
    exact ⟨⟨hs'.held, hnil⟩, hs'.grows, parts, new, hcalls, hdrawn, hitems⟩
  · rename_i hempty
    have hne := ne_nil_of_vertices hlast fun hnil => hempty (List.isEmpty_iff.mpr hnil)
    obtain ⟨parts', last', new', hparts, hcalls', hdrawn', hlast', -⟩ :=
      renderBatch_queued hs'.held hcalls hdrawn hlast hne (Nat.le_of_lt hroom)
    obtain rfl := eq_nil_of_vertices hlast' rfl
    rw [hparts, List.append_nil] at hitems
    exact ⟨⟨renderBatch_held hs'.held, rfl⟩, hs'.grows, parts', new', hcalls', hdrawn', hitems⟩

/-! ### Runs -/

/-- What is done with a text renderer and its cache. -/
inductive Op (F S : Type) where
  | draw (r : Rasterizer F S) (cells : List TextCell)
  | resetGlyphCache (r : Rasterizer F S)
  /-- The fonts, their size and metrics are those of another cache. -/
  | updateFontSize (font : GlyphCache F S)

omit [DecidableEq F] [DecidableEq S] in
/-- A renderer that was just created. -/
def new (isGlesContext : Bool) (id : Nat) (font : GlyphCache F S) : TextRenderApi F S V :=
  ⟨{ font with cache := [] }, .new isGlesContext id, ⟨0, []⟩, []⟩

def step (kind : TextRenderBatch V) (s : TextRenderApi F S V) : Op F S → Option (TextRenderApi F S V)
  | .draw r cells => s.drawCells kind r cells
  | .resetGlyphCache r => (s.cache.resetGlyphCache r s.loader).map fun (cache, loader) => { s with cache, loader }
  | .updateFontSize font => some { s with cache := { font with cache := s.cache.cache } }

omit [DecidableEq F] [DecidableEq S] in
/-- The bitmaps and names of textures are as the atlases need them. -/
def Op.Sane : Op F S → Prop
  | draw r _ => r.Sane
  | resetGlyphCache r => r.Sane
  | updateFontSize _ => True

omit [DecidableEq F] [DecidableEq S] in
theorem new_ready (isGlesContext : Bool) (id : Nat) (font : GlyphCache F S) :
    (new isGlesContext id font : TextRenderApi F S V).Ready :=
  ⟨⟨[], LoaderApi.new_owned isGlesContext id, fun _ hx => absurd hx List.not_mem_nil⟩, rfl⟩

theorem step_ready (h : s.Ready) {op : Op F S} (hop : op.Sane) : Allows (s.step kind op) Ready := by
  cases op with
  | draw r cells => exact (drawCells_ready hop h cells).2.mono fun _ hs' => hs'.1
  | resetGlyphCache r =>
      intro s' hs'
      obtain ⟨x, hx, rfl⟩ := Option.map_eq_some_iff.mp hs'
      exact ⟨GlyphCache.resetGlyphCache_held hop h.held x hx, h.drawn⟩
  | updateFontSize font =>
      obtain ⟨loaded, howned, hcache⟩ := h.held
      exact .pure ⟨⟨loaded, howned, hcache⟩, h.drawn⟩

variable {isGlesContext : Bool} {id : Nat} {font : GlyphCache F S}

theorem run_ready (h : Reaches (step kind) (fun _ op => op.Sane) (new isGlesContext id font) s) : s.Ready :=
  h.invariant (new_ready isGlesContext id font) fun _ _ _ hs hop hstep => step_ready hs hop _ hstep

/-- Bitmaps of 10 by 20 pixels, and names that are counted up. -/
def blocks : Rasterizer Unit Unit where
  getGlyph key := .ok ⟨key.character, ⟨10, 20, 15, 0, .rgb⟩⟩
  builtinGlyph _ := none
  zeroWidth _ := false
  genTextures atlas := (atlas.map Atlas.id).foldr max 0 + 1

theorem le_foldr_max {n : Nat} {ns : List Nat} (h : n ∈ ns) : n ≤ ns.foldr max 0 := by
  induction ns with
  | nil => cases h
  | cons m ns ih =>
      rcases List.mem_cons.mp h with rfl | h
      · exact Nat.le_max_left _ _
      · exact Nat.le_trans (ih h) (Nat.le_max_right _ _)

theorem blocks_sane : blocks.Sane where
  fresh atlas a ha heq := by
    have hle := le_foldr_max (List.mem_map_of_mem (f := Atlas.id) ha)
    have heq : (atlas.map Atlas.id).foldr max 0 + 1 = a.id := heq
    omega
  getGlyph key b h := by
    rw [← Except.ok.inj h]
    exact ⟨(by decide : (0 : Int) ≤ 10), (by decide : (0 : Int) ≤ 20)⟩
  missingGlyph key b h := by cases h
  builtinGlyph character b h := by cases h

def cellOf (character : Char) : TextCell where
  character
  point := ⟨0, 0⟩
  fg := ⟨0, 0, 0⟩
  underline := ⟨0, 0, 0⟩
  transparent := false
  flags := default
  extra := false
  bg := ⟨0, 0, 0⟩
  bgAlpha := 0
  zerowidth := none

/-- Fonts without offsets. -/
def noFonts : GlyphCache Unit Unit := ⟨[], (), (), (), (), (), (0, 0), 0, 0, false⟩

/-- In every run, cached glyphs lie in the textures of atlases, two different ones share no pixel of
a texture, and the renderer knows the texture that is bound. -/
theorem run_separate (h : Reaches (step kind) (fun _ op => op.Sane) (new isGlesContext id font) s) :
    (∀ x ∈ s.cache.cache, ∀ y ∈ s.cache.cache, GlyphCache.Separate x.2 y.2) ∧
      (∀ x ∈ s.cache.cache, ∃ a ∈ s.loader.atlas, a.id = x.2.texId ∧ x.2.uv.Inside a.texture) ∧
      s.loader.activeTex = s.loader.boundTex := by
  have hheld := (run_ready h).held
  refine ⟨hheld.separate, hheld.inside, ?_⟩
  obtain ⟨loaded, howned, -⟩ := hheld
  exact howned.bound

/-- The two glyphs of some cells. -/
theorem run_separate_cells : ∃ s : TextRenderApi Unit Unit Glsl3.InstanceData,
    (new false 1 noFonts).step Glsl3.batch (.draw blocks [cellOf 'a', cellOf 'b']) = some s ∧
      s.cache.cache.map (fun x => x.2.uv) = [⟨0, 0, 10, 20⟩, ⟨10, 0, 10, 20⟩] ∧
      ∀ x ∈ s.cache.cache, ∀ y ∈ s.cache.cache, GlyphCache.Separate x.2 y.2 := by
  obtain ⟨s, hs, huv⟩ : ∃ s : TextRenderApi Unit Unit Glsl3.InstanceData,
      (new false 1 noFonts).step Glsl3.batch (.draw blocks [cellOf 'a', cellOf 'b']) = some s ∧
        s.cache.cache.map (fun x => x.2.uv) = [⟨0, 0, 10, 20⟩, ⟨10, 0, 10, 20⟩] := ⟨_, rfl, rfl⟩
  have hrun : Reaches (step Glsl3.batch) (fun _ op => op.Sane) (new false 1 noFonts) s :=
    .step .refl (a := .draw blocks [cellOf 'a', cellOf 'b']) blocks_sane hs
  exact ⟨s, hs, huv, (run_separate hrun).1⟩

end TextRenderApi

/-! ### Elements -/

namespace Gles2
variable {cellWidth cellHeight : Int} {items : List (TextCell × Glyph)} {call : DrawCall TextVertex}

/-- The corners of the two triangles of a glyph. -/
def corners (index : Nat) : List Nat := [index, index + 1, index + 3, index + 1, index + 2, index + 3]

/-- The elements buffer, of `u16`. -/
def vertexIndices : List Nat :=
  (List.range (batchMax / 4)).flatMap fun index => (corners (index * 4 % 2 ^ 16)).map (· % 2 ^ 16)

/-- The vertices of the triangles of a call, as `glDrawElements` finds them. -/
def drawElements (call : DrawCall TextVertex) : List (Option TextVertex) :=
  (vertexIndices.take (call.vertices.length / 4 * 6)).map fun index => call.vertices[index]?

theorem vertexIndices_eq : vertexIndices = (List.range (batchMax / 4)).flatMap fun index => corners (index * 4) := by
  refine List.flatMap_congr fun index hindex => ?_
  have hlt : index < 16383 := List.mem_range.mp hindex
  have hmod (k : Nat) (hk : k < 4) : (index * 4 % 2 ^ 16 + k) % 2 ^ 16 = index * 4 + k := by omega
  simp only [corners, List.map_cons, List.map_nil, hmod 1 (by decide), hmod 2 (by decide), hmod 3 (by decide)]
  rw [show index * 4 % 2 ^ 16 % 2 ^ 16 = index * 4 from hmod 0 (by decide)]

theorem take_vertexIndices {n : Nat} (h : n ≤ batchMax / 4) :
    vertexIndices.take (n * 6) = (List.range n).flatMap fun index => corners (index * 4) := by
  have hsplit := List.take_append_drop n (List.range (batchMax / 4))
  rw [List.take_range, Nat.min_eq_left h] at hsplit
  rw [vertexIndices_eq, ← hsplit, List.flatMap_append, List.take_left']
  rw [List.length_flatMap]
  simp only [corners, List.length_cons, List.length_nil, List.map_const', List.sum_replicate_nat,
    List.length_range]

def triangles (cellWidth cellHeight : Int) (x : TextCell × Glyph) : List (Option TextVertex) :=
  (corners 0).map fun index => (vertices cellWidth cellHeight x.1 x.2)[index]?

theorem corners_add (index : Nat) : corners index = (corners 0).map (index + ·) := rfl

theorem map_corners (items : List (TextCell × Glyph)) :
    ((List.range items.length).flatMap fun index => corners (index * 4)).map
      (fun index => ((batch cellWidth cellHeight).entriesOf items)[index]?) =
        items.flatMap (triangles cellWidth cellHeight) := by
  induction items using List.reverseRecOn with
  | nil => rfl
  | append_singleton items x ih =>
      have hlength : ((batch cellWidth cellHeight).entriesOf items).length = items.length * 4 :=
        (batch cellWidth cellHeight).length_entriesOf items
      rw [List.length_append, List.length_singleton, List.range_succ, List.flatMap_append, List.map_append,
        List.flatMap_append, List.flatMap_singleton, List.flatMap_singleton, ← ih,
        (batch cellWidth cellHeight).entriesOf_append items x.1 x.2]
      congr 1
      · refine List.map_congr_left fun index hindex => ?_
        obtain ⟨i, hi, hcorner⟩ := List.mem_flatMap.mp hindex
        have hi := List.mem_range.mp hi
        have hlt : index < items.length * 4 := by
          simp only [corners, List.mem_cons, List.not_mem_nil, or_false] at hcorner
          omega
        rw [List.getElem?_append_left (hlength ▸ hlt)]
      · rw [corners_add, List.map_map, triangles]
        refine List.map_congr_left fun index _ => ?_
        rw [Function.comp_apply, List.getElem?_append_right (by omega), hlength, Nat.add_sub_cancel_left]
        rfl

/-- The elements of a call are two triangles for each of its items, of the item's own vertices. -/
theorem drawElements_triangles (h : (batch cellWidth cellHeight).Drawn items call) :
    drawElements call = items.flatMap (triangles cellWidth cellHeight) := by
  have hlength : call.vertices.length = items.length * 4 := by
    rw [h.vertices]
    exact (batch cellWidth cellHeight).length_entriesOf items
  have hfits : items.length * 4 ≤ batchMax := hlength ▸ h.fits
  have hcount : call.vertices.length / 4 = items.length := by omega
  have hle : items.length ≤ batchMax / 4 := (Nat.le_div_iff_mul_le (by decide)).mpr hfits
  rw [drawElements, hcount, take_vertexIndices hle, h.vertices, map_corners]

/-- The elements of two glyphs of one texture. -/
theorem drawElements_triangles_two :
    let x := (TextRenderApi.cellOf 'a', (⟨1, false, 0, 0, 10, 20, ⟨0, 0, 10, 20⟩⟩ : Glyph))
    let y := (TextRenderApi.cellOf 'b', (⟨1, false, 2, 1, 8, 20, ⟨10, 0, 8, 20⟩⟩ : Glyph))
    let call : DrawCall TextVertex := ⟨1, vertices 10 20 x.1 x.2 ++ vertices 10 20 y.1 y.2⟩
    (drawElements call).length = 12 ∧
      drawElements call = triangles 10 20 x ++ triangles 10 20 y := by
  intro x y call
  have hdrawn : (batch 10 20).Drawn [x, y] call := by
    refine ⟨List.cons_ne_nil x [y], rfl, fun z hz => ?_, by decide⟩
    rcases List.mem_cons.mp hz with rfl | hz
    · rfl
    · rw [List.mem_singleton.mp hz]
  have htriangles := drawElements_triangles hdrawn
  rw [List.flatMap_cons, List.flatMap_singleton] at htriangles
  exact ⟨by rw [htriangles]; rfl, htriangles⟩

end Gles2
end Velacritty

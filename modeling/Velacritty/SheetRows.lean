import Velacritty.FrontRows
import Velacritty.Sheet

/-! A sheet as the grid stores it: its rows, filled up with blank cells. -/
namespace Velacritty
open Fallible

/-- The cells of a row of the grid that shows `cells`. -/
def fullRow (columns : Nat) (cells : List Cell) : List Cell :=
  cells ++ List.replicate (columns - cells.length) .blank

section
variable {columns : Nat} {cells : List Cell}

theorem fullRow_nil (columns : Nat) : fullRow columns [] = List.replicate columns .blank := rfl

theorem length_fullRow (h : cells.length ≤ columns) : (fullRow columns cells).length = columns := by
  simp only [fullRow, List.length_append, List.length_replicate]
  omega

theorem fullRow_of_length (h : cells.length = columns) : fullRow columns cells = cells := by
  rw [fullRow, h, Nat.sub_self]
  exact List.append_nil _

theorem modify_append_length {α : Type} (f : α → α) (front : List α) (x : α) (rest : List α) :
    (front ++ x :: rest).modify front.length f = front ++ f x :: rest := by
  induction front with
  | nil => rfl
  | cons y front ih => exact congrArg (y :: ·) ih

/-- Writing the first cell that is still blank. -/
theorem fullRow_modify (h : cells.length < columns) (cell : Cell) :
    (fullRow columns cells).modify cells.length (fun _ => cell) = fullRow columns (cells ++ [cell]) := by
  obtain ⟨rest, hrest⟩ : ∃ rest, columns - cells.length = rest + 1 :=
    ⟨columns - cells.length - 1, by omega⟩
  have hlength : columns - (cells ++ [cell]).length = rest := by
    rw [List.length_append, List.length_singleton]
    omega
  rw [fullRow, fullRow, hrest, hlength, List.replicate_succ, modify_append_length, List.append_assoc]
  rfl

theorem reset_blank {r r' : Row Cell} (h : r.inner = fullRow columns [])
    (hr : r.reset .blank = some r') : r'.inner = fullRow columns [] := by
  simp only [Row.reset, Option.bind_eq_bind, Option.bind_eq_some_iff, Option.ite_none_right_eq_some,
    Option.some.injEq] at hr
  obtain ⟨last, -, hocc, rfl⟩ := hr
  rw [fullRow_nil] at h ⊢
  simp only [h, List.take_replicate, List.map_replicate, List.drop_replicate]
  have hblank : (GridCell.reset Cell.blank Cell.blank : Cell) = .blank := rfl
  rw [hblank, List.replicate_append_replicate]
  congr 1
  unfold Row.len at hocc
  rw [h, List.length_replicate] at hocc
  omega

end

namespace Storage
variable {raw raw' : Storage Cell} {columns : Nat} {s : Sheet}

/-- The rows of a sheet as they are stored, from the bottommost line upwards: blank ones up to
the row being written, then the complete ones, and cached ones which are blank. -/
def sheetRows (s : Sheet) (below spare : Nat) : List (List Cell) :=
  List.replicate below [] ++ s.row :: (s.above.reverse ++ List.replicate spare [])

theorem sheetRows_getElem? (s : Sheet) (below spare : Nat) :
    (sheetRows s below spare)[below]? = some s.row := by
  rw [sheetRows, List.getElem?_append_right (Nat.le_of_eq List.length_replicate),
    List.length_replicate, Nat.sub_self]
  rfl

theorem sheetRows_set (s : Sheet) (below spare : Nat) (cells : List Cell) :
    (sheetRows s below spare).set below cells = sheetRows { s with row := cells } below spare := by
  rw [sheetRows, List.set_append_right _ _ (Nat.le_of_eq List.length_replicate),
    List.length_replicate, Nat.sub_self]
  rfl

/-- A new line is written into the row below. -/
theorem sheetRows_feed (s : Sheet) (below spare : Nat) :
    sheetRows s (below + 1) spare = sheetRows s.feed below spare := by
  simp only [sheetRows, Sheet.feed, List.reverse_append, List.reverse_singleton, List.replicate_succ',
    List.append_assoc]
  rfl

/-- The storage shows a sheet, from the topmost line on. -/
structure Shows (columns : Nat) (s : Sheet) (raw : Storage Cell) : Prop where
  filled : raw.Filled
  above_lt : s.above.length < raw.len
  ring : ∃ spare, raw.ring.map Row.inner =
    (sheetRows s (raw.len - 1 - s.above.length) spare).map (fullRow columns)

theorem Shows.modify (h : raw.Shows columns s) {line : Int}
    (hline : raw.position line = raw.len - 1 - s.above.length) {cells : List Cell}
    {f : Row Cell → Option (Row Cell)}
    (hf : ∀ r r', r.inner = fullRow columns s.row → f r = some r' → r'.inner = fullRow columns cells)
    (hraw : raw.modify line f = some raw') :
    raw'.Shows columns { s with row := cells } ∧ raw.SameShape raw' := by
  obtain ⟨i, r, r', hi, hr, hr', rfl⟩ := modify_inner hraw
  have hhas := (computeIndex_spec hi).1
  cases Option.some.inj (hhas.computeIndex.symm.trans hi)
  rw [Circular.getElem?_index h.filled.zero_lt (h.filled.position_lt hhas)] at hr
  obtain ⟨spare, hring⟩ := h.ring
  have hinner : r.inner = fullRow columns s.row := by
    have hget := congrArg (·[raw.position line]?) hring
    simp only [List.getElem?_map, hline, sheetRows_getElem?] at hget
    rw [hline] at hr
    have hr' : raw.ring[raw.len - 1 - s.above.length]? = some r := hr
    rw [hr'] at hget
    exact Option.some.inj hget
  have hset : Storage.ring { raw with
      inner := raw.inner.set (Circular.index raw.inner.length raw.zero (raw.position line)) r' } =
      raw.ring.set (raw.position line) r' :=
    Circular.rotate_set h.filled.zero_lt (h.filled.position_lt hhas) r'
  have hshape : raw.SameShape { raw with
      inner := raw.inner.set (Circular.index raw.inner.length raw.zero (raw.position line)) r' } :=
    ⟨rfl, rfl, rfl, List.length_set⟩
  refine ⟨⟨hshape.filled h.filled, h.above_lt, spare, ?_⟩, hshape⟩
  rw [hset, List.map_set, hring, hf r r' hinner hr', hline, ← List.map_set, sheetRows_set]

/-- Going on in the row below. -/
theorem Shows.feed (h : raw.Shows columns s) (hbelow : s.above.length + 1 < raw.len) :
    raw.Shows columns s.feed := by
  obtain ⟨spare, hring⟩ := h.ring
  have hlength : s.feed.above.length = s.above.length + 1 := List.length_append
  refine ⟨h.filled, hlength ▸ hbelow, spare, ?_⟩
  have hsplit : raw.len - 1 - s.above.length = raw.len - 1 - s.feed.above.length + 1 := by omega
  rw [hring, hsplit, sheetRows_feed]

/-- A row is scrolled into the history, and a new one comes in at the bottom. -/
theorem Shows.initializeRows (h : raw.Shows columns s) (hlast : s.above.length + 1 = raw.len) :
    Allows (raw.initializeRows 1 columns) fun raw' => raw'.Filled ∧ raw'.len = raw.len + 1 ∧
      raw'.visibleLines = raw.visibleLines ∧
      ∃ spare, raw'.ring.map Row.inner = (sheetRows s 0 (spare + 1)).map (fullRow columns) := by
  intro raw' hraw'
  obtain ⟨hstored, hvis, hlen, -⟩ := (h.filled.toStored.initializeRows 1 columns).of_eq hraw'
  have hpos := h.filled.visible_pos
  have hle := h.filled.visible_le
  refine ⟨⟨hstored, hvis ▸ hpos, ?_⟩, hlen, hvis, ?_⟩
  · rw [hvis, hlen]
    exact Nat.le_add_right_of_le hle
  obtain ⟨spare, hring⟩ := h.ring
  have hbelow : raw.len - 1 - s.above.length = 0 := by omega
  rw [hbelow] at hring
  unfold Storage.initializeRows at hraw'
  split at hraw'
  · rw [rezero_rows h.filled.zero_lt] at hraw'
    cases hraw'
    refine ⟨spare + (max 1 maxCacheSize - 1), ?_⟩
    have hmore : (List.replicate (max 1 maxCacheSize) (Row.new columns : Row Cell)).map Row.inner =
        (List.replicate (max 1 maxCacheSize) []).map (fullRow columns) := by
      rw [List.map_replicate, List.map_replicate]
      rfl
    rw [ring_of_zero rfl]
    simp only
    rw [List.map_append, hring, hmore, ← List.map_append]
    congr 1
    simp only [sheetRows, List.append_assoc, List.cons_append, List.replicate_append_replicate]
    rfl
  · next hroom =>
      cases hraw'
      have hlength := congrArg List.length hring
      simp only [List.length_map, sheetRows, List.length_append, List.length_cons,
        List.length_replicate, List.length_reverse, Storage.length_ring] at hlength
      refine ⟨spare - 1, ?_⟩
      rw [Nat.sub_add_cancel (by omega)]
      exact hring

/-- Rotating up brings a blank row to the bottom. -/
theorem rotate_sheetRows (hfilled : raw.Filled) {spare : Nat}
    (hring : raw.ring.map Row.inner = (sheetRows s 0 (spare + 1)).map (fullRow columns)) :
    Allows (raw.rotate (-1)) fun raw' => raw'.Filled ∧ raw'.visibleLines = raw.visibleLines ∧
      raw'.len = raw.len ∧
      raw'.ring.map Row.inner = (sheetRows s.feed 0 spare).map (fullRow columns) := by
  intro raw' hraw'
  have hpos : 0 < raw.inner.length := Nat.lt_of_le_of_lt (Nat.zero_le _) hfilled.zero_lt
  have hle : (-1 : Int).natAbs ≤ raw.inner.length := by omega
  obtain ⟨hfilled', hvis, hlen, hring'⟩ := (hfilled.rotate hle).of_eq hraw'
  refine ⟨hfilled', hvis, hlen, ?_⟩
  have hcount : (-1 % (raw.inner.length : Int)).toNat = raw.inner.length - 1 := by
    rw [← Int.add_emod_right (-1) (raw.inner.length : Int), Int.emod_eq_of_lt (by omega) (by omega)]
    omega
  have hlast : sheetRows s 0 (spare + 1) = s.row :: (s.above.reverse ++ List.replicate spare []) ++ [[]] := by
    simp only [sheetRows, List.replicate_succ', List.replicate_zero, List.nil_append, List.cons_append,
      List.append_assoc]
  have hlength := congrArg List.length hring
  rw [List.length_map, List.length_map, length_ring, hlast, List.length_append, List.length_singleton]
    at hlength
  rw [hring', List.map_rotate, hring, hcount, ← List.map_rotate, hlast, hlength, Nat.add_sub_cancel,
    List.rotate_append_length_eq]
  simp only [sheetRows, Sheet.feed, List.reverse_append, List.reverse_singleton, List.replicate_zero]
  rfl

theorem withCapacity_shows {visibleLines : Nat} (hv : 1 ≤ visibleLines) (columns : Nat) :
    (withCapacity visibleLines columns : Storage Cell).Shows columns .empty := by
  refine ⟨withCapacity_filled hv columns, hv, 0, ?_⟩
  obtain ⟨below, rfl⟩ : ∃ below, visibleLines = below + 1 := ⟨visibleLines - 1, by omega⟩
  rw [ring_of_zero rfl]
  simp only [withCapacity, sheetRows, Sheet.empty, List.length_nil, List.reverse_nil,
    List.replicate_zero, List.append_nil, List.map_replicate, ← List.replicate_succ']
  rfl

/-- The rows of the sheet, from the first one on, are those of the lines from the topmost one on. -/
theorem Shows.get (h : raw.Shows columns s) {line : Int} {k : Nat} {cells : List Cell}
    (hk : (s.above ++ [s.row])[k]? = some cells) (hline : raw.HasLine line)
    (hposition : raw.position line = raw.len - 1 - k) :
    ∃ r, raw.get line = some r ∧ r.inner = fullRow columns cells := by
  have habove := h.above_lt
  have hlt := (List.getElem?_eq_some_iff.mp hk).1
  rw [List.length_append, List.length_singleton] at hlt
  obtain ⟨spare, hring⟩ := h.ring
  have hcells : (sheetRows s (raw.len - 1 - s.above.length) spare)[raw.position line]? = some cells := by
    have hlist : sheetRows s (raw.len - 1 - s.above.length) spare =
        List.replicate (raw.len - 1 - s.above.length) [] ++
          ((s.above ++ [s.row]).reverse ++ List.replicate spare []) := by
      rw [sheetRows, List.reverse_append, List.reverse_singleton]
      rfl
    have hindex : raw.position line - (raw.len - 1 - s.above.length) = s.above.length - k := by omega
    have hlen : (s.above ++ [s.row]).length = s.above.length + 1 := List.length_append
    rw [hlist, List.getElem?_append_right (by rw [List.length_replicate]; omega), List.length_replicate,
      hindex, List.getElem?_append_left (by rw [List.length_reverse]; omega),
      List.getElem?_reverse (by omega), hlen, ← hk]
    congr 1
    omega
  have hget := congrArg (·[raw.position line]?) hring
  simp only [List.getElem?_map, hcells] at hget
  obtain ⟨r, hr, hinner⟩ := Option.map_eq_some_iff.mp hget
  refine ⟨r, ?_, hinner⟩
  rw [Storage.get, hline.computeIndex]
  exact (Circular.getElem?_index h.filled.zero_lt (h.filled.position_lt hline)).trans hr

end Storage

namespace Grid
variable {g g' : Grid Cell} {s : Sheet}

theorem pinViewport_eq (g : Grid Cell) (positions : Nat) :
    g.pinViewport positions = { g with displayOffset := (g.pinViewport positions).displayOffset } := by
  unfold pinViewport
  split <;> rfl

theorem increaseScrollLimit_shows (h : g.raw.Shows g.columns s) (hlast : s.above.length + 1 = g.raw.len)
    (hroom : g.historySize < g.maxScrollLimit) :
    Allows (g.increaseScrollLimit 1) fun g' => ∃ raw, g' = { g with raw } ∧ raw.Filled ∧
      raw.len = g.raw.len + 1 ∧ raw.visibleLines = g.raw.visibleLines ∧
      ∃ spare, raw.ring.map Row.inner =
        (Storage.sheetRows s 0 (spare + 1)).map (fullRow g.columns) := by
  have hcount : min 1 (g.maxScrollLimit - g.historySize) = 1 := by omega
  unfold increaseScrollLimit
  rw [usub_of_le (Nat.le_of_lt hroom)]
  simp only [Option.bind_eq_bind, Option.bind_some, hcount]
  refine (h.initializeRows hlast).bind fun raw hraw => .pure ⟨raw, rfl, hraw⟩

/-- Scrolling the screen up by a line, with room in the history, begins a new line. -/
theorem scrollUp_shows (h : g.raw.Shows g.columns s) (hvis : g.raw.visibleLines = g.lines)
    (htemplate : g.cursor.template = .blank) (hlast : s.above.length + 1 = g.raw.len)
    (hroom : g.historySize < g.maxScrollLimit) :
    Allows (g.scrollUp 0 g.lines 1) fun g' => g'.raw.Shows g.columns s.feed ∧
      g'.raw.len = g.raw.len + 1 := by
  have hpos := h.filled.visible_pos
  have hlines : ¬ ((g.lines : Int) - 0 ≤ (1 : Nat) ∧ (0 : Int) ≠ 0) := fun hall => hall.2 rfl
  have hfirst : (lineRange 0 0).reverse = [] := by
    rw [lineRange_eq_nil (Int.le_refl 0)]
    rfl
  have hrest : (lineRange g.lines g.lines).reverse = [] := by
    rw [lineRange_eq_nil (Int.le_refl _)]
    rfl
  have hbottom : lineRange ((g.lines : Int) - (1 : Nat)) g.lines = [(g.lines : Int) - 1] := by
    have hone : ((g.lines : Int) - ((g.lines : Int) - (1 : Nat))).toNat = 1 := by omega
    rw [lineRange, hone]
    exact congrArg (· :: []) (Int.add_zero _)
  rw [scrollUp, if_neg hlines, pinViewport_eq]
  generalize (g.pinViewport 1).displayOffset = offset
  refine Allows.bind (P := fun a => a.cursor = g.cursor ∧ a.raw.Filled ∧
    a.raw.len = g.raw.len + 1 ∧ a.raw.visibleLines = g.lines ∧ ∃ spare,
      a.raw.ring.map Row.inner = (Storage.sheetRows s.feed 0 spare).map (fullRow g.columns))
    ?_ fun a ha => ?_
  · rw [rotateRegionUp, if_pos rfl]
    refine (increaseScrollLimit_shows (g := { g with displayOffset := offset }) h hlast hroom).bind
      fun a ha => ?_
    obtain ⟨raw, rfl, hfilled, hlen, hrawvis, spare, hring⟩ := ha
    rw [hfirst]
    refine Allows.bind (P := (· = raw)) (.pure rfl) fun b hb => ?_
    subst hb
    refine (Storage.rotate_sheetRows hfilled hring).bind fun c hc => ?_
    obtain ⟨hfilled', hvis', hlen', hring'⟩ := hc
    simp only [hrest]
    refine Allows.bind (P := (· = c)) (.pure rfl) fun d hd => .pure ?_
    subst hd
    exact ⟨rfl, hfilled', hlen'.trans hlen, hvis'.trans (hrawvis.trans hvis), spare, hring'⟩
  · obtain ⟨hcursor, hfilled, hlen, havis, spare, hring⟩ := ha
    have hshows : a.raw.Shows g.columns s.feed := by
      have habove : s.feed.above.length = s.above.length + 1 := List.length_append
      have hzero : a.raw.len - 1 - s.feed.above.length = 0 := by omega
      exact ⟨hfilled, by omega, spare, hzero ▸ hring⟩
    rw [hbottom, resetLines, hcursor, htemplate]
    refine Allows.bind (P := fun raw => raw.Shows g.columns s.feed ∧ raw.len = a.raw.len)
      (fun raw hraw => ?_) fun raw hraw => .pure ⟨hraw.1, hraw.2.trans hlen⟩
    simp only [Storage.resetLines, List.foldlM_cons, List.foldlM_nil, Option.bind_eq_bind,
      Option.bind_eq_some_iff] at hraw
    obtain ⟨b, hb, heq⟩ := hraw
    cases heq
    have hposition : a.raw.position ((g.lines : Int) - 1) =
        a.raw.len - 1 - s.feed.above.length := by
      have habove : s.feed.above.length = s.above.length + 1 := List.length_append
      simp only [Storage.position, havis]
      omega
    obtain ⟨hshows', hshape⟩ := hshows.modify hposition (fun r r' hr hr' => reset_blank hr hr') hb
    exact ⟨hshows', hshape.len⟩

end Grid

end Velacritty

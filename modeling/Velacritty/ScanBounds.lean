import Velacritty.RegexScan
import Velacritty.TermSteps

/-! Where the scan of a regex stops, and when it runs past its end. -/
namespace Velacritty
open Fallible

namespace Dfa
variable {σ : Type} {dfa : Dfa σ} {lastPoint : Point} {p p' : Parser σ}

theorem readByte_retry {first : Bool} {byte : UInt8}
    (h : dfa.readByte lastPoint first byte p = .retry p') :
    first = true ∧ p.consumedBytes = 1 ∧ p' = dfa.resetState := by
  unfold readByte at h
  simp only at h
  split_ifs at h with hmatch hdead hcount hfirst
  cases h
  exact ⟨hfirst, by omega, rfl⟩

/-- A character is tried again if the byte before it was the only one since the last reset. -/
theorem readBytes_retry {first : Bool} {bytes : List UInt8}
    (h : dfa.readBytes lastPoint first bytes p = .retry p') :
    first = true ∧ p.consumedBytes = 1 ∧ p' = dfa.resetState := by
  induction bytes generalizing first p with
  | nil => exact nomatch h
  | cons byte bytes ih =>
      unfold readBytes at h
      split at h
      · exact nomatch (ih h).1
      · next hretry =>
          cases h
          exact readByte_retry hretry
      · exact nomatch h

/-- An automaton that knows neither matches nor dead states. -/
def silent : Dfa Unit := ⟨(), fun _ _ => (), fun _ => (), fun _ => false, fun _ => false⟩

/-- The automaton of a text, which sees a match at the byte behind it. -/
def literal (bytes : List UInt8) : Dfa Nat where
  start := 0
  nextState state byte :=
    if state = bytes.length ∨ bytes[state]? = some byte then state + 1 else bytes.length + 2
  nextEoiState state := if state = bytes.length then state + 1 else bytes.length + 2
  isMatch state := state == bytes.length + 1
  isDead state := state == bytes.length + 2

theorem readBytes_silent {p : Parser Unit} (lastPoint : Point) (first : Bool) (bytes : List UInt8)
    (hmatch : p.regexMatch = none) :
    ∃ p', silent.readBytes lastPoint first bytes p = .read p' ∧ p'.regexMatch = none := by
  induction bytes generalizing first p with
  | nil => exact ⟨p, rfl, hmatch⟩
  | cons byte bytes ih =>
      have hread : silent.readByte lastPoint first byte p =
          .read ⟨(), p.consumedBytes + 1, p.regexMatch⟩ := by
        unfold readByte silent
        simp only [Bool.and_false, Bool.false_eq_true, if_false]
      unfold readBytes
      rw [hread]
      exact ih false hmatch

end Dfa

namespace Term

section
variable (t : Term) (direction : Side) (start stop : Point)

/-- The numbers of cells from the start to the characters of the scan. -/
inductive Lands : Nat → Prop
  | first : Lands (t.skipLength direction start)
  | next {k : Nat} : Lands k →
      Lands (k + 1 + t.skipLength direction (t.dims.cellAhead direction start (k + 1)))

/-- The first character does not end beyond the end of the scan, and no character that begins right
before the end of the scan takes more than two cells. -/
structure Meets : Prop where
  first : t.skipLength direction start ≤ t.dims.ahead direction start stop
  next : ∀ k, Lands t direction start k → k + 2 = t.dims.ahead direction start stop →
    t.skipLength direction (t.dims.cellAhead direction start (k + 1)) ≤ 1

variable {σ : Type} (dfa : Dfa σ)

/-- The round only tries a character again. -/
def Again (s s' : Scan σ) : Prop :=
  s'.point = s.point ∧ s'.done = s.done ∧ s.parser.consumedBytes = 1 ∧ s'.parser.consumedBytes = 0

/-- The round comes from a cell before the end nearer to it, or to its last character. -/
def Goes (s s' : Scan σ) : Prop :=
  s.done = false ∧ t.dims.ahead direction start s.point < t.dims.ahead direction start stop ∧
    (s'.done = true ∨ t.dims.ahead direction start s.point < t.dims.ahead direction start s'.point)

/-- The scan stops after two rounds a cell, each cell is tried again at most once, and no character
beyond the end is read. -/
def ScanStops : Prop :=
  (t.regexSearchInternal dfa direction stop (2 * t.dims.ahead direction start stop + 1) start).isSome ∧
    ∃ first, t.scanStart dfa direction start = some first ∧
      ∀ s, Relation.ReflTransGen
          (fun s s' => t.scanRound dfa direction stop s = some (.inr s')) first s →
        (s.done = true ∨
          t.dims.ahead direction start s.point ≤ t.dims.ahead direction start stop) ∧
        ∀ s', t.scanRound dfa direction stop s = some (.inr s') →
          Again s s' ∨ t.Goes direction start stop s s'

end

variable {t : Term} {direction : Side} {start stop p : Point} {σ : Type} {dfa : Dfa σ} {s : Scan σ}

theorem skipLength_lt (ht : t.WF) (direction : Side) (hp : t.InGrid p) :
    t.skipLength direction p < t.dims.cells := by
  have hvalid : t.dims.Valid := ht.grid.valid
  have hpos := hvalid.cells_pos
  have hindex := Dimensions.index_lt hvalid hp
  have htwo : 2 ≤ t.dims.cells := by
    have hC : 2 ≤ t.dims.columns := ht.two_le
    have hlines := Nat.le_trans hvalid.lines_pos hvalid.lines_le
    calc 2 ≤ t.dims.columns := hC
      _ = 1 * t.dims.columns := (Nat.one_mul _).symm
      _ ≤ t.dims.cells := Nat.mul_le_mul_right _ hlines
  unfold skipLength
  split
  · exact hpos
  · cases direction with
    | right =>
        simp only
        split
        · omega
        · split
          · omega
          · exact hpos
    | left =>
        simp only
        split
        · exact Nat.lt_of_le_of_lt (Nat.min_le_left ..) hindex
        · exact hpos

/-- The scan starts at the end of the first character. -/
theorem scanStart_returns (ht : t.WF) (dfa : Dfa σ) (direction : Side) (hstart : t.InGrid start) :
    Returns (t.scanStart dfa direction start) fun s =>
      s.parser = dfa.resetState ∧ s.done = false ∧ s.it = t.grid.iterFrom s.point ∧
        s.point = t.dims.cellAhead direction start (t.skipLength direction start) := by
  have hvalid : t.dims.Valid := ht.grid.valid
  obtain ⟨cell, hcell⟩ := cellAt_inGrid ht hstart
  have hfirst : (t.grid.iterFrom start).cell = some cell := hcell
  unfold scanStart
  simp only [hfirst, Option.bind_eq_bind, Option.bind_some]
  refine (skipFullwidth_returns ht direction hstart hcell).bind fun r hr => ?_
  obtain ⟨wrapped, hwrapped⟩ := cellAt_inGrid ht (p := t.dims.cellAhead direction start
    (t.skipLength direction start)) (Dimensions.cellAhead_has hvalid)
  have hcell' : r.1.cell = some wrapped := by rw [hr]; exact hwrapped
  rw [hcell']
  refine .pure ⟨rfl, rfl, ?_, ?_⟩
  · rw [hr]
    rfl
  · rw [hr]
    rfl

theorem scanAdvance_returns (ht : t.WF) (dfa : Dfa σ) (direction : Side) (stop : Point)
    (hpoint : t.InGrid s.point)
    (hit : s.it = t.grid.iterFrom s.point) (p : Parser σ) :
    Returns (t.scanAdvance dfa direction stop s p) (Sum.elim
      (fun r => r.isSome = true ∧
        (r = p.regexMatch ∨ dfa.isMatch (dfa.nextEoiState p.state) = true))
      fun s' => (s'.parser = p ∨ s'.parser = dfa.resetState) ∧ s'.it = t.grid.iterFrom s'.point ∧
        s'.done = decide (t.dims.cellAhead direction s.point 1 = stop) ∧
        s'.point = t.dims.cellAhead direction s.point
          (1 + t.skipLength direction (t.dims.cellAhead direction s.point 1))) := by
  have hvalid : t.dims.Valid := ht.grid.valid
  unfold scanAdvance
  rw [hit]
  refine (nextCell_returns ht direction hpoint).bind fun ⟨it, cell⟩ ⟨hit, hcell⟩ => ?_
  have hit : it = _ := hit
  subst hit
  refine (skipFullwidth_returns ht direction (Dimensions.cellAhead_has hvalid) hcell).bind
    fun ⟨it', cell'⟩ hit' => ?_
  have hit' : it' = _ := hit'
  rw [Dimensions.cellAhead_add hvalid] at hit'
  subst hit'
  obtain ⟨wrapped, hwrapped⟩ := cellAt_inGrid ht (p := t.dims.cellAhead direction s.point
    (1 + t.skipLength direction (t.dims.cellAhead direction s.point 1)))
    (Dimensions.cellAhead_has hvalid)
  have hcell' : (t.grid.iterFrom (t.dims.cellAhead direction s.point
      (1 + t.skipLength direction (t.dims.cellAhead direction s.point 1)))).cell = some wrapped :=
    hwrapped
  simp only [hcell', Option.bind_eq_bind, Option.bind_some]
  split
  · have hfound : (if dfa.isMatch (dfa.nextEoiState p.state) = true then some s.point
        else p.regexMatch) = p.regexMatch ∨ dfa.isMatch (dfa.nextEoiState p.state) = true := by
      by_cases hmatch : dfa.isMatch (dfa.nextEoiState p.state) = true
      · exact .inr hmatch
      · exact .inl (if_neg hmatch)
    generalize (if dfa.isMatch (dfa.nextEoiState p.state) = true then some s.point
      else p.regexMatch) = regexMatch at hfound ⊢
    split
    · next hstop => exact ⟨_, rfl, hstop.1, hfound⟩
    · exact ⟨_, rfl, .inr rfl, rfl, rfl, rfl⟩
  · exact ⟨_, rfl, .inl rfl, rfl, rfl, rfl⟩

/-- Before the end, the iterator is on the last cell of a character. -/
structure Scanning (t : Term) (direction : Side) (start stop : Point) (s : Scan σ) : Prop where
  it : s.it = t.grid.iterFrom s.point
  inGrid : t.InGrid s.point
  lands : s.done = true ∨ ∃ k ≤ t.dims.ahead direction start stop, Lands t direction start k ∧
    s.point = t.dims.cellAhead direction start k

/-- A scan that meets its end does not jump over it in a round. -/
theorem scanRound_returns (ht : t.WF) (dfa : Dfa σ) (hstop : t.InGrid stop)
    (hmeets : Meets t direction start stop) (h : Scanning t direction start stop s) :
    Returns (t.scanRound dfa direction stop s) (Sum.elim (fun _ => True) fun s' =>
      Scanning t direction start stop s' ∧ (Again s s' ∨ t.Goes direction start stop s s')) := by
  have hvalid : t.dims.Valid := ht.grid.valid
  have hlt := Dimensions.ahead_lt hvalid direction start stop
  unfold scanRound
  split
  · exact .pure trivial
  · next p hretry =>
      obtain ⟨-, hcount, rfl⟩ := Dfa.readBytes_retry hretry
      exact .pure ⟨⟨h.it, h.inGrid, h.lands⟩, .inl ⟨rfl, rfl, hcount, rfl⟩⟩
  · next p _ =>
      split
      · exact .pure trivial
      · next hgo =>
          obtain ⟨hne, hdone⟩ := not_or.mp hgo
          obtain ⟨k, hk, hlands, hpoint⟩ := h.lands.resolve_left hdone
          have hahead : t.dims.ahead direction start s.point = k := by
            rw [hpoint, Dimensions.ahead_cellAhead_of_lt hvalid _ _ (by omega)]
          have hbefore : k < t.dims.ahead direction start stop := by
            refine Nat.lt_of_le_of_ne hk fun heq => hne ?_
            rw [hpoint, heq, Dimensions.cellAhead_ahead hvalid _ _ hstop]
          refine (scanAdvance_returns ht dfa direction stop h.inGrid h.it p).mono fun r hr => ?_
          cases r with
          | inl _ => trivial
          | inr s' =>
              obtain ⟨-, hit, hdone', hpoint'⟩ := hr
              rw [hpoint, Dimensions.cellAhead_add hvalid] at hdone' hpoint'
              rw [Dimensions.cellAhead_add hvalid, ← Nat.add_assoc] at hpoint'
              have hgrid : t.InGrid s'.point := hpoint' ▸ Dimensions.cellAhead_has hvalid
              by_cases hend : k + 1 = t.dims.ahead direction start stop
              · have hdone' : s'.done = true := by
                  rw [hdone', hend, Dimensions.cellAhead_ahead hvalid _ _ hstop]
                  exact decide_eq_true rfl
                exact ⟨⟨hit, hgrid, .inl hdone'⟩, .inr
                  ⟨Bool.eq_false_iff.mpr hdone, hahead ▸ hbefore, .inl hdone'⟩⟩
              · have hle : k + 1 + t.skipLength direction (t.dims.cellAhead direction start (k + 1)) ≤
                    t.dims.ahead direction start stop := by
                  have htwo := skipLength_le t direction (t.dims.cellAhead direction start (k + 1))
                  by_cases hlast : k + 2 = t.dims.ahead direction start stop
                  · have hone := hmeets.next k hlands hlast
                    omega
                  · omega
                refine ⟨⟨hit, hgrid, .inr ⟨_, hle, .next hlands, hpoint'⟩⟩, .inr
                  ⟨Bool.eq_false_iff.mpr hdone, hahead ▸ hbefore, .inr ?_⟩⟩
                rw [hahead, hpoint', Dimensions.ahead_cellAhead_of_lt hvalid _ _ (by omega)]
                omega

def roundsLeft (t : Term) (direction : Side) (start stop : Point) (s : Scan σ) : Nat :=
  2 * (if s.done then 0
    else t.dims.ahead direction start stop - t.dims.ahead direction start s.point) +
    min 1 s.parser.consumedBytes

theorem roundsLeft_lt {s s' : Scan σ} (h : Again s s' ∨ t.Goes direction start stop s s') :
    t.roundsLeft direction start stop s' < t.roundsLeft direction start stop s := by
  unfold roundsLeft
  rcases h with ⟨hpoint, hdone, hcount, hcount'⟩ | ⟨hdone, hbefore, hgoes⟩
  · rw [hpoint, hdone, hcount, hcount']
    exact Nat.lt_succ_self _
  · rw [hdone]
    rcases hgoes with hdone' | hlt
    · rw [hdone']
      simp only [if_true, Bool.false_eq_true, if_false]
      omega
    · simp only [Bool.false_eq_true, if_false]
      split
      · omega
      · omega

theorem scanStops_of_meets (ht : t.WF) (hstart : t.InGrid start) (hstop : t.InGrid stop)
    (hmeets : Meets t direction start stop) (dfa : Dfa σ) : t.ScanStops direction start stop dfa := by
  have hvalid : t.dims.Valid := ht.grid.valid
  obtain ⟨first, hfirst, hparser, hdone, hit, hpoint⟩ := scanStart_returns ht dfa direction hstart
  have hscan : Scanning t direction start stop first :=
    ⟨hit, hpoint ▸ Dimensions.cellAhead_has hvalid, .inr ⟨_, hmeets.first, .first, hpoint⟩⟩
  have hstep (s : Scan σ) (hs : Scanning t direction start stop s) :=
    scanRound_returns ht dfa hstop hmeets hs
  refine ⟨?_, first, hfirst, fun s hrun => ?_⟩
  · unfold regexSearchInternal
    rw [hfirst]
    refine Returns.isSome (P := fun _ => True) (loop_returns (t.roundsLeft direction start stop) hscan
      ?_ fun s hs => (hstep s hs).mono fun r hr => ?_)
    · unfold roundsLeft
      rw [hdone, hparser]
      simp only [Dfa.resetState, Bool.false_eq_true, if_false]
      omega
    · cases r with
      | inl _ => trivial
      | inr s' => exact ⟨hr.1, roundsLeft_lt hr.2⟩
  · have hs : Scanning t direction start stop s := by
      induction hrun with
      | refl => exact hscan
      | tail _ hround ih => exact ((hstep _ ih).of_eq hround).1
    refine ⟨hs.lands.imp_right fun hlands => ?_, fun s' hround => ((hstep s hs).of_eq hround).2⟩
    obtain ⟨k, hk, -, hpoint⟩ := hlands
    have hlt := Dimensions.ahead_lt hvalid direction start stop
    rwa [hpoint, Dimensions.ahead_cellAhead_of_lt hvalid _ _ (by omega)]

/-- The silent automaton goes on to the next character. -/
theorem scanRound_silent (ht : t.WF) (direction : Side) (stop : Point) {s : Scan Unit} (hgrid : t.InGrid s.point)
    (hit : s.it = t.grid.iterFrom s.point) (hmatch : s.parser.regexMatch = none)
    (hdone : s.done = false) (hne : s.point ≠ stop) :
    ∃ s', t.scanRound Dfa.silent direction stop s = some (.inr s') ∧
      s'.parser.regexMatch = none ∧ s'.it = t.grid.iterFrom s'.point ∧
      s'.done = decide (t.dims.cellAhead direction s.point 1 = stop) ∧
      s'.point = t.dims.cellAhead direction s.point
        (1 + t.skipLength direction (t.dims.cellAhead direction s.point 1)) := by
  obtain ⟨p, hread, hnone⟩ := Dfa.readBytes_silent s.lastPoint true
    (charBytes direction s.c) hmatch
  obtain ⟨r, hr, hspec⟩ := scanAdvance_returns ht Dfa.silent direction stop hgrid hit p
  have hround : t.scanRound Dfa.silent direction stop s =
      t.scanAdvance Dfa.silent direction stop s p := by
    unfold scanRound
    rw [hread]
    simp only
    rw [if_neg (not_or.mpr ⟨hne, Bool.eq_false_iff.mp hdone⟩)]
  rw [hround, hr]
  cases r with
  | inl result =>
      obtain ⟨hsome, hresult | hresult⟩ := hspec
      · rw [hresult, hnone] at hsome
        exact nomatch hsome
      · exact nomatch hresult
  | inr s' =>
      obtain ⟨hparser, hit', hdone', hpoint'⟩ := hspec
      refine ⟨s', rfl, ?_, hit', hdone', hpoint'⟩
      rcases hparser with hparser | hparser
      · rw [hparser, hnone]
      · rw [hparser]
        rfl

/-- The silent automaton comes to each character before the end. -/
theorem silent_lands (ht : t.WF) (hstart : t.InGrid start) (stop : Point)
    {first : Scan Unit} (hfirst : t.scanStart Dfa.silent direction start = some first) {k : Nat}
    (h : Lands t direction start k) (hk : k < t.dims.ahead direction start stop) :
    ∃ s, Relation.ReflTransGen
        (fun s s' => t.scanRound Dfa.silent direction stop s = some (.inr s')) first s ∧
      s.it = t.grid.iterFrom s.point ∧ s.point = t.dims.cellAhead direction start k ∧
      s.done = false ∧ s.parser.regexMatch = none ∧ (k = 0 → s.parser.consumedBytes = 0) := by
  have hvalid : t.dims.Valid := ht.grid.valid
  have hlt := Dimensions.ahead_lt hvalid direction start stop
  induction h with
  | first =>
      obtain ⟨hparser, hdone, hit, hpoint⟩ :=
        (scanStart_returns ht Dfa.silent direction hstart).of_eq hfirst
      exact ⟨first, .refl, hit, hpoint, hdone, by rw [hparser]; rfl, fun _ => by rw [hparser]; rfl⟩
  | @next k _ ih =>
      obtain ⟨s, hrun, hit, hpoint, hdone, hmatch, -⟩ := ih (by omega)
      have hgrid : t.InGrid s.point := hpoint ▸ Dimensions.cellAhead_has hvalid
      have hbefore {l : Nat} (hl : l < t.dims.ahead direction start stop) :
          t.dims.cellAhead direction start l ≠ stop := by
        intro heq
        have hahead := Dimensions.ahead_cellAhead_of_lt hvalid direction start
          (show l < t.dims.cells by omega)
        rw [heq] at hahead
        omega
      obtain ⟨s', hround, hmatch', hit', hdone', hpoint'⟩ := scanRound_silent ht direction stop hgrid hit
        hmatch hdone (hpoint ▸ hbefore (by omega))
      rw [hpoint, Dimensions.cellAhead_add hvalid] at hdone' hpoint'
      rw [Dimensions.cellAhead_add hvalid, ← Nat.add_assoc] at hpoint'
      refine ⟨s', hrun.tail hround, hit', hpoint', ?_, hmatch', fun hzero => by omega⟩
      rw [hdone']
      exact decide_eq_false (hbefore (by omega))

theorem meets_of_silent (ht : t.WF) (hstart : t.InGrid start)
    (h : t.ScanStops direction start stop Dfa.silent) : Meets t direction start stop := by
  have hvalid : t.dims.Valid := ht.grid.valid
  have hlt := Dimensions.ahead_lt hvalid direction start stop
  obtain ⟨-, first, hfirst, hrun⟩ := h
  refine ⟨?_, fun k hlands hlast => ?_⟩
  · obtain ⟨-, hdone, -, hpoint⟩ := (scanStart_returns ht Dfa.silent direction hstart).of_eq hfirst
    have hend := (hrun first .refl).1.resolve_left (Bool.eq_false_iff.mp hdone)
    rwa [hpoint, Dimensions.ahead_cellAhead_of_lt hvalid _ _ (skipLength_lt ht direction hstart)] at hend
  · refine Nat.le_of_not_lt fun htwo => ?_
    have hskip : t.skipLength direction (t.dims.cellAhead direction start (k + 1)) = 2 := by
      have hle := skipLength_le t direction (t.dims.cellAhead direction start (k + 1))
      omega
    obtain ⟨s, hreach, hit, hpoint, hdone, hmatch, hzero⟩ :=
      silent_lands ht hstart stop hfirst hlands (by omega)
    have hgrid : t.InGrid s.point := hpoint ▸ Dimensions.cellAhead_has hvalid
    have hahead {l : Nat} (hl : l < t.dims.cells) :=
      Dimensions.ahead_cellAhead_of_lt hvalid direction start hl
    have hbefore {l : Nat} (hl : l < t.dims.ahead direction start stop) :
        t.dims.cellAhead direction start l ≠ stop := by
      intro heq
      have hl' := hahead (show l < t.dims.cells by omega)
      rw [heq] at hl'
      omega
    obtain ⟨s', hround, -, -, hdone', hpoint'⟩ := scanRound_silent ht direction stop hgrid hit
      hmatch hdone (hpoint ▸ hbefore (by omega))
    rw [hpoint, Dimensions.cellAhead_add hvalid] at hdone' hpoint'
    rw [Dimensions.cellAhead_add hvalid, hskip] at hpoint'
    have hdone' : ¬ s'.done = true := by
      rw [hdone', decide_eq_true_iff]
      exact hbefore (by omega)
    have hend := (hrun s' (hreach.tail hround)).1.resolve_left hdone'
    have hnext := (hrun s hreach).2 s' hround
    have hpos := hahead (show k < t.dims.cells by omega)
    have hpos' := Dimensions.ahead_cellAhead hvalid direction start (k + (1 + 2))
    rw [← hpoint'] at hpos'
    rw [← hpoint] at hpos
    by_cases hroom : k + (1 + 2) < t.dims.cells
    · rw [Nat.mod_eq_of_lt hroom] at hpos'
      omega
    · -- the cell beyond the end is the start again
      have hcells : k + (1 + 2) = t.dims.cells := by omega
      rw [hcells, Nat.mod_self] at hpos'
      rcases hnext with ⟨hsame, -, hcount, -⟩ | ⟨-, -, hgoes⟩
      · rw [hsame] at hpos'
        have hcount' := hzero (by omega)
        omega
      · rcases hgoes with hdone'' | hgoes
        · exact hdone' hdone''
        · omega

/-- The silent automaton never stops if its characters lead to each other, not to the end. -/
theorem regexSearchInternal_never (ht : t.WF) (hstart : t.InGrid start) (stop : Point) {S : Point → Prop}
    (hfirst : S (t.dims.cellAhead direction start (t.skipLength direction start)))
    (hnext : ∀ p, S p → p ≠ stop ∧ t.dims.cellAhead direction p 1 ≠ stop ∧
      S (t.dims.cellAhead direction p
        (1 + t.skipLength direction (t.dims.cellAhead direction p 1)))) (fuel : Nat) :
    t.regexSearchInternal Dfa.silent direction stop fuel start = none := by
  have hvalid : t.dims.Valid := ht.grid.valid
  have hnever : Allows (t.regexSearchInternal Dfa.silent direction stop fuel start)
      fun _ => False := by
    refine (scanStart_returns ht Dfa.silent direction hstart).allows.bind
      fun first ⟨hparser, hdone, hit, hpoint⟩ => ?_
    refine loop_allows (P := fun s : Scan Unit => s.it = t.grid.iterFrom s.point ∧ t.InGrid s.point ∧
      s.done = false ∧ s.parser.regexMatch = none ∧ S s.point)
      ⟨hit, hpoint ▸ Dimensions.cellAhead_has hvalid, hdone, by rw [hparser]; rfl, hpoint ▸ hfirst⟩
      fun s ⟨hit, hgrid, hdone, hmatch, hS⟩ => ?_
    obtain ⟨hne, hne', hS'⟩ := hnext s.point hS
    obtain ⟨s', hround, hmatch', hit', hdone', hpoint'⟩ := scanRound_silent ht direction stop hgrid hit
      hmatch hdone hne
    rw [hround]
    refine .pure ⟨hit', hpoint' ▸ Dimensions.cellAhead_has hvalid, ?_, hmatch', hpoint' ▸ hS'⟩
    rw [hdone']
    exact decide_eq_false hne'
  exact Option.eq_none_iff_forall_ne_some.mpr fun r hr => hnever r hr

/-- Whatever the automaton, the scan stops at its end, if and only if no character jumps over it. -/
theorem scanStops_iff (t : Term) (ht : t.WF) (start stop : Point) (hstart : t.InGrid start)
    (hstop : t.InGrid stop) (direction : Side) :
    (∀ (σ : Type) (dfa : Dfa σ), t.ScanStops direction start stop dfa) ↔
      Meets t direction start stop := by
  constructor
  · intro h
    exact meets_of_silent ht hstart (h Unit Dfa.silent)
  · intro h σ dfa
    exact scanStops_of_meets ht hstart hstop h dfa

/-- The scan finds a fullwidth character before a narrow one. -/
theorem scanStops_fullwidth : ∃ t, Term.Reachable .fullwidth .initial 2 3 t ∧
    t.regexSearchInternal (.literal (charBytes .right '漢')) .right ⟨1, 2⟩ 11 ⟨0, 0⟩ = some (some ⟨0, 1⟩) ∧
    t.ScanStops .right ⟨0, 0⟩ ⟨1, 2⟩ (Dfa.literal (charBytes .right '漢')) := by
  obtain ⟨t, hrun, hfound, hstart, hstop, hahead, hfirst, hnext⟩ :
      ∃ t, Term.Reachable .fullwidth .initial 2 3 t ∧
      t.regexSearchInternal (.literal (charBytes .right '漢')) .right ⟨1, 2⟩ 11 ⟨0, 0⟩ = some (some ⟨0, 1⟩) ∧
      t.InGrid ⟨0, 0⟩ ∧ t.InGrid ⟨1, 2⟩ ∧ t.dims.ahead .right ⟨0, 0⟩ ⟨1, 2⟩ = 5 ∧
      t.skipLength .right ⟨0, 0⟩ ≤ 5 ∧ t.skipLength .right (t.dims.cellAhead .right ⟨0, 0⟩ 4) ≤ 1 :=
    ⟨_, .step (.step .refl (a := .handler (.input '漢')) trivial rfl)
      (a := .handler (.input 'a')) trivial rfl, rfl, ⟨by decide, by decide, by decide⟩,
      ⟨by decide, by decide, by decide⟩, by decide, by decide, by decide⟩
  refine ⟨t, hrun, hfound, (scanStops_iff t (hrun.wf (by decide) (by decide)) _ _ hstart hstop .right).mpr
    ⟨hahead ▸ hfirst, fun k _ hk => ?_⟩ Nat _⟩
  obtain rfl : k = 3 := by omega
  exact hnext

/-- A wide character that was wrapped, at the beginning of whose line the scan should stop. -/
theorem scanStops_not : ∃ t, Term.Reachable .fullwidth .initial 2 2 t ∧
    t.InGrid ⟨0, 0⟩ ∧ t.InGrid ⟨1, 0⟩ ∧
    (∀ fuel, t.regexSearchInternal Dfa.silent .right ⟨1, 0⟩ fuel ⟨0, 0⟩ = none) ∧
    ¬ t.ScanStops .right ⟨0, 0⟩ ⟨1, 0⟩ Dfa.silent := by
  have hwrapped : ∃ t, Term.Reachable .fullwidth .initial 2 2 t ∧ t.InGrid ⟨0, 0⟩ ∧
      t.InGrid ⟨1, 0⟩ ∧
      t.dims.cellAhead .right ⟨0, 0⟩ (t.skipLength .right ⟨0, 0⟩) = ⟨0, 0⟩ ∧
      ∀ p, p = ⟨0, 0⟩ ∨ p = ⟨1, 1⟩ → t.dims.cellAhead .right p 1 ≠ ⟨1, 0⟩ ∧
        (t.dims.cellAhead .right p (1 + t.skipLength .right (t.dims.cellAhead .right p 1)) = ⟨0, 0⟩ ∨
          t.dims.cellAhead .right p (1 + t.skipLength .right (t.dims.cellAhead .right p 1)) = ⟨1, 1⟩) := by
    refine ⟨_, .step (.step .refl (a := .handler (.input 'a')) trivial rfl)
      (a := .handler (.input '漢')) trivial rfl, ?_, ?_, rfl, ?_⟩
    · exact ⟨by decide, by decide, by decide⟩
    · exact ⟨by decide, by decide, by decide⟩
    · rintro p (rfl | rfl)
      · exact ⟨by decide, .inr rfl⟩
      · exact ⟨by decide, .inl rfl⟩
  obtain ⟨t, hrun, hstart, hstop, hfirst, hnext⟩ := hwrapped
  have ht := hrun.wf (by decide) (by decide)
  have hnever := regexSearchInternal_never ht hstart ⟨1, 0⟩
    (S := fun p => p = ⟨0, 0⟩ ∨ p = ⟨1, 1⟩) (.inl hfirst) fun p hp => ⟨?_, (hnext p hp)⟩
  · refine ⟨t, hrun, hstart, hstop, hnever, fun h => ?_⟩
    have hsome := h.1
    rw [hnever] at hsome
    exact nomatch hsome
  · rcases hp with rfl | rfl
    · decide
    · decide

end Term
end Velacritty

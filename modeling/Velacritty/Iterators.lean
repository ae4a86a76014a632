import Velacritty.Fallible

/-! Iterators whose `next` can fail, and the items that they yield in a whole run.
Nothing here names a program. -/
namespace Fallible
universe u v
variable {σ : Type u} {α : Type v} {next : σ → Option (Option α × σ)}

/-- The run of an iterator until its end: the items with the states that they were asked for in,
and the state that yielded none. -/
inductive Iterates (next : σ → Option (Option α × σ)) : σ → List (σ × α) → σ → Prop
  | stop {s s' : σ} : next s = some (none, s') → Iterates next s [] s
  | yield {s s' last : σ} {a : α} {items : List (σ × α)} : next s = some (some a, s') →
      Iterates next s' items last → Iterates next s ((s, a) :: items) last

/-- There is no end in states that lead to others of their kind only. -/
theorem Iterates.absurd {P : σ → Prop} {s last : σ} {items : List (σ × α)}
    (h : Iterates next s items last) (hs : P s)
    (hstep : ∀ s, P s → Allows (next s) fun r => r.1 ≠ none ∧ P r.2) : False := by
  induction h with
  | stop hnext => exact (hstep _ hs _ hnext).1 rfl
  | yield hnext _ ih => exact ih (hstep _ hs _ hnext).2

/-- What one step of an ordered iteration yields begins where the state says, and ends before the
next state. -/
def Advances (low : σ → Nat) (first last : α → Nat) (bound : Nat) (s : σ) (a : α) (s' : σ) : Prop :=
  low s ≤ first a ∧ first a ≤ last a ∧ first a ≤ bound ∧ last a < low s'

/-- An iterator that advances toward a bound ends, and its items are in order without overlap. -/
theorem iterates_ordered (next : σ → Option (Option α × σ)) (Inv : σ → Prop)
    (Good : σ → α → Prop) (low : σ → Nat) (first last : α → Nat) (bound : Nat) {s : σ} (h : Inv s)
    (hnext : ∀ s, Inv s → Returns (next s) fun r =>
      ∀ a, r.1 = some a → Inv r.2 ∧ Good s a ∧ Advances low first last bound s a r.2) :
    ∃ items stop, Iterates next s items stop ∧ Inv stop ∧ low s ≤ low stop ∧
      (∀ x ∈ items, Inv x.1 ∧ Good x.1 x.2 ∧ low s ≤ low x.1 ∧ low x.1 ≤ first x.2 ∧
        first x.2 ≤ last x.2 ∧ last x.2 < low stop) ∧
      items.Pairwise fun x y => last x.2 < low y.1 ∧ last x.2 < first y.2 := by
  induction hm : bound + 1 - low s using Nat.strongRecOn generalizing s with
  | ind m ih =>
      obtain ⟨⟨item, s'⟩, hs, hstep⟩ := hnext s h
      cases item with
      | none => exact ⟨[], s, .stop hs, h, Nat.le_refl _, fun x hx => (nomatch hx), .nil⟩
      | some a =>
          obtain ⟨hinv, hgood, hlow, hle, hbound, hlt⟩ := hstep a rfl
          have hlt : last a < low s' := hlt
          obtain ⟨items, stop, hrun, hstop, hmono, hitems, hpair⟩ :=
            ih (bound + 1 - low s') (by omega) hinv rfl
          have hmono : low s' ≤ low stop := hmono
          refine ⟨(s, a) :: items, stop, .yield hs hrun, hstop, by omega, ?_, ?_⟩
          · rintro x (_ | ⟨_, hx⟩)
            · exact ⟨h, hgood, Nat.le_refl _, hlow, hle, Nat.lt_of_lt_of_le hlt hmono⟩
            · obtain ⟨hx₁, hgood', hx₂, hx₃⟩ := hitems x hx
              have hmove : low s ≤ low s' := by omega
              exact ⟨hx₁, hgood', Nat.le_trans hmove hx₂, hx₃⟩
          · refine List.pairwise_cons.mpr ⟨fun y hy => ?_, hpair⟩
            obtain ⟨-, -, hy₂, hy₃, -⟩ := hitems y hy
            have hbefore : last a < low y.1 := Nat.lt_of_lt_of_le hlt hy₂
            exact ⟨hbefore, Nat.lt_of_lt_of_le hbefore hy₃⟩

/-- The items of an iterator that cannot fail, in a run until its end. -/
inductive Yields (next : σ → Option α × σ) : σ → List α → Prop
  | stop {s : σ} : (next s).1 = none → Yields next s []
  | yield {s s' : σ} {a : α} {items : List α} : next s = (some a, s') →
      Yields next s' items → Yields next s (a :: items)

/-- Collect the items of an iterator that ends. -/
def collect (next : σ → Option α × σ) : Nat → σ → Option (List α)
  | 0, _ => none
  | fuel + 1, s =>
      match next s with
      | (none, _) => some []
      | (some a, s) => (collect next fuel s).map (a :: ·)

theorem Yields.collect_eq {next : σ → Option α × σ} {s : σ} {items : List α} {fuel : Nat}
    (h : Yields next s items) (hfuel : items.length < fuel) : collect next fuel s = some items := by
  induction h generalizing fuel with
  | stop hnext =>
      cases fuel with
      | zero => exact absurd hfuel (Nat.not_lt_zero _)
      | succ fuel =>
          unfold collect
          split
          · rfl
          · next hsome =>
              rw [hsome] at hnext
              exact nomatch hnext
  | yield hnext _ ih =>
      cases fuel with
      | zero => exact absurd hfuel (Nat.not_lt_zero _)
      | succ fuel =>
          unfold collect
          rw [hnext]
          simp only [ih (Nat.lt_of_succ_lt_succ hfuel), Option.map_some]

end Fallible

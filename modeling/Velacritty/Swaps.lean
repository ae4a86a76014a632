import Mathlib.Data.List.Basic

/-! Chains of exchanges that move contents from place to place. Nothing here names a
program. -/
namespace Swaps
universe u v w
variable {ι : Type u} {α : Type v} {κ : Type w} [DecidableEq ι]

/-- The contents after those of two places were exchanged. -/
def exchange (f : ι → α) (a b : ι) : ι → α :=
  fun x => if x = a then f b else if x = b then f a else f x

/-- Exchanges in the order given. -/
def chain (f : ι → α) (pairs : List (ι × ι)) : ι → α :=
  pairs.foldl (fun f p => exchange f p.1 p.2) f

/-- Later exchanges leave the target of an earlier one alone, and no source is used twice. -/
def Ordered (pairs : List (ι × ι)) : Prop :=
  pairs.Pairwise fun p q => p.1 ≠ q.1 ∧ p.1 ≠ q.2 ∧ p.2 ≠ q.2

theorem exchange_target (f : ι → α) (a b : ι) : exchange f a b a = f b := if_pos rfl

theorem exchange_source (f : ι → α) (a b : ι) : exchange f a b b = f a := by
  unfold exchange
  split
  · next h => rw [h]
  · exact if_pos rfl

theorem exchange_other (f : ι → α) {a b x : ι} (ha : x ≠ a) (hb : x ≠ b) :
    exchange f a b x = f x := by
  rw [exchange, if_neg ha, if_neg hb]

theorem exchange_comm (f : ι → α) (a b : ι) : exchange f a b = exchange f b a := by
  funext x
  by_cases ha : x = a
  · rw [ha, exchange_target, exchange_source]
  · by_cases hb : x = b
    · rw [hb, exchange_target, exchange_source]
    · rw [exchange_other f ha hb, exchange_other f hb ha]

theorem chain_map_swap (f : ι → α) (pairs : List (ι × ι)) :
    chain f (pairs.map Prod.swap) = chain f pairs := by
  induction pairs generalizing f with
  | nil => rfl
  | cons p rest ih =>
      rw [List.map_cons, chain, chain, List.foldl_cons, List.foldl_cons]
      exact (congrArg (fun f => chain f (rest.map Prod.swap)) (exchange_comm f p.2 p.1)).trans (ih _)

/-- Places that no exchange names keep their contents. -/
theorem chain_other {pairs : List (ι × ι)} (f : ι → α) {x : ι}
    (hx : ∀ p ∈ pairs, x ≠ p.1 ∧ x ≠ p.2) : chain f pairs x = f x := by
  induction pairs generalizing f with
  | nil => rfl
  | cons p rest ih =>
      rw [List.forall_mem_cons] at hx
      rw [chain, List.foldl_cons]
      exact (ih _ hx.2).trans (exchange_other f hx.1.1 hx.1.2)

/-- Each target ends up with what its source had at first. -/
theorem chain_target {pairs : List (ι × ι)} (h : Ordered pairs) (f : ι → α) :
    ∀ p ∈ pairs, chain f pairs p.1 = f p.2 := by
  induction pairs generalizing f with
  | nil => exact fun p hp => absurd hp List.not_mem_nil
  | cons q rest ih =>
      obtain ⟨hq, hrest⟩ := List.pairwise_cons.mp h
      intro p hp
      rw [chain, List.foldl_cons]
      rcases List.mem_cons.mp hp with rfl | hp
      · refine (chain_other _ fun r hr => ⟨(hq r hr).1, (hq r hr).2.1⟩).trans ?_
        exact exchange_target f p.1 p.2
      · refine (ih hrest _ p hp).trans ?_
        exact exchange_other f (hq p hp).2.1.symm (hq p hp).2.2.symm

/-- The places that are not a target end up with what was, at first, in those that are not
a source. -/
theorem chain_rest {P : α → Prop} {pairs : List (ι × ι)} (h : Ordered pairs) {D : ι → Prop}
    (f : ι → α) (hD : ∀ p ∈ pairs, D p.1 ∧ D p.2)
    (hf : ∀ x, D x → (∀ p ∈ pairs, x ≠ p.2) → P (f x)) :
    ∀ x, D x → (∀ p ∈ pairs, x ≠ p.1) → P (chain f pairs x) := by
  induction pairs generalizing f D with
  | nil => exact fun x hx _ => hf x hx fun p hp => absurd hp List.not_mem_nil
  | cons q rest ih =>
      obtain ⟨hq, hrest⟩ := List.pairwise_cons.mp h
      rw [List.forall_mem_cons] at hD
      intro x hx hne
      rw [List.forall_mem_cons] at hne
      rw [chain, List.foldl_cons]
      -- The target of the first exchange is left alone from now on.
      refine ih hrest (D := fun y => D y ∧ y ≠ q.1) (exchange f q.1 q.2)
        (fun p hp => ⟨⟨(hD.2 p hp).1, (hq p hp).1.symm⟩, (hD.2 p hp).2, (hq p hp).2.1.symm⟩)
        (fun y hy hyrest => ?_) x ⟨hx, hne.1⟩ hne.2
      by_cases hsource : y = q.2
      · rw [hsource, exchange_source]
        refine hf q.1 hD.1.1 (List.forall_mem_cons.mpr ⟨fun heq => ?_, fun p hp => (hq p hp).2.1⟩)
        exact hy.2 (hsource.trans heq.symm)
      · rw [exchange_other f hy.2 hsource]
        exact hf y hy.1 (List.forall_mem_cons.mpr ⟨hsource, hyrest⟩)

omit [DecidableEq ι] in
theorem ordered_map {r : κ → κ → Prop} {target source : κ → ι} {ks : List κ} (h : ks.Pairwise r)
    (hr : ∀ j k, r j k → target j ≠ target k ∧ target j ≠ source k ∧ source j ≠ source k) :
    Ordered (ks.map fun k => (target k, source k)) :=
  List.pairwise_map.mpr (h.imp fun hjk => hr _ _ hjk)

theorem chain_map_other {target source : κ → ι} {ks : List κ} (f : ι → α) {x : ι}
    (hx : ∀ k ∈ ks, x ≠ target k ∧ x ≠ source k) :
    chain f (ks.map fun k => (target k, source k)) x = f x :=
  chain_other f (List.forall_mem_map.mpr hx)

theorem chain_map_target {target source : κ → ι} {ks : List κ}
    (h : Ordered (ks.map fun k => (target k, source k))) (f : ι → α) {k : κ} (hk : k ∈ ks) :
    chain f (ks.map fun k => (target k, source k)) (target k) = f (source k) :=
  chain_target h f _ (List.mem_map_of_mem hk)

end Swaps

import Mathlib.Data.Option.Basic
import Mathlib.Data.List.Basic

/-! Fallible computations and the runs of a fallible step. A panic is `none`;
nothing here names a program. -/
namespace Fallible
universe u v
variable {α β σ : Type u} {ι : Type v}

/-- The computation returns, and its result satisfies `P`. -/
def Returns (o : Option α) (P : α → Prop) : Prop := ∃ a, o = some a ∧ P a

theorem Returns.pure {P : α → Prop} {a : α} (h : P a) : Returns (some a) P := ⟨a, rfl, h⟩

theorem Returns.mono {o : Option α} {P Q : α → Prop} (h : Returns o P) (hpq : ∀ a, P a → Q a) :
    Returns o Q := by
  obtain ⟨a, ha, hp⟩ := h
  exact ⟨a, ha, hpq a hp⟩

/-- Sequencing: the continuation only sees results that satisfy `P`. -/
theorem Returns.bind {o : Option α} {f : α → Option β} {P : α → Prop} {Q : β → Prop}
    (h : Returns o P) (hf : ∀ a, P a → Returns (f a) Q) : Returns (o >>= f) Q := by
  obtain ⟨a, rfl, hp⟩ := h
  exact hf a hp

theorem Returns.isSome {o : Option α} {P : α → Prop} (h : Returns o P) : o.isSome := by
  obtain ⟨a, rfl, _⟩ := h
  rfl

/-- Whatever was returned is the result the specification speaks of. -/
theorem Returns.of_eq {o : Option α} {P : α → Prop} {a : α} (h : Returns o P) (ha : o = some a) :
    P a := by
  obtain ⟨b, hb, hp⟩ := h
  exact Option.some.inj (ha.symm.trans hb) ▸ hp

/-- Loop rule: an invariant that every body keeps holds after the whole loop. -/
theorem Returns.foldlM {f : σ → ι → Option σ} {P : σ → Prop} {xs : List ι} {s : σ}
    (h : P s) (hf : ∀ s, P s → ∀ x ∈ xs, Returns (f s x) P) : Returns (xs.foldlM f s) P := by
  induction xs generalizing s with
  | nil => exact Returns.pure h
  | cons x xs ih =>
      rw [List.foldlM_cons]
      refine (hf s h x List.mem_cons_self).bind fun s' hs' => ?_
      exact ih hs' fun t ht y hy => hf t ht y (List.mem_cons_of_mem _ hy)

/-- Loop rule: what a body does for its own element, and the others keep, is done for all. -/
theorem Returns.foldlM_each {f : σ → ι → Option σ} {P : σ → Prop} {Q : ι → σ → Prop} {xs : List ι}
    {s : σ} (h : P s) (hf : ∀ s, P s → ∀ x ∈ xs, Returns (f s x) fun s' =>
      P s' ∧ Q x s' ∧ ∀ y, Q y s → Q y s') :
    Returns (xs.foldlM f s) fun s' => P s' ∧ (∀ x ∈ xs, Q x s') ∧ ∀ y, Q y s → Q y s' := by
  induction xs generalizing s with
  | nil =>
      refine Returns.pure ⟨h, ?_, fun y hy => hy⟩
      exact fun x hx => nomatch hx
  | cons x xs ih =>
      rw [List.foldlM_cons]
      refine (hf s h x List.mem_cons_self).bind fun t ⟨ht, hx, hkeep⟩ => ?_
      refine (ih ht fun s hs y hy => hf s hs y (List.mem_cons_of_mem _ hy)).mono ?_
      rintro u ⟨hu, hall, hkeep'⟩
      refine ⟨hu, ?_, fun y hy => hkeep' y (hkeep y hy)⟩
      intro y hy
      rcases List.mem_cons.mp hy with rfl | hy
      · exact hkeep' y hx
      · exact hall y hy

/-- Partial-correctness loop rule, for bodies that need not return. -/
theorem foldlM_invariant {f : σ → ι → Option σ} {P : σ → Prop} {xs : List ι} {s s' : σ}
    (h : P s) (hf : ∀ s x s', P s → x ∈ xs → f s x = some s' → P s')
    (hs : xs.foldlM f s = some s') : P s' := by
  induction xs generalizing s with
  | nil => exact Option.some.inj hs ▸ h
  | cons x xs ih =>
      rw [List.foldlM_cons, Option.bind_eq_bind, Option.bind_eq_some_iff] at hs
      obtain ⟨t, ht, hs⟩ := hs
      exact ih (hf s x t h List.mem_cons_self ht)
        (fun s y s' hP hy => hf s y s' hP (List.mem_cons_of_mem _ hy)) hs

/-- What is returned satisfies `P`, if anything is. -/
def Allows (o : Option α) (P : α → Prop) : Prop := ∀ a, o = some a → P a

theorem Returns.allows {o : Option α} {P : α → Prop} (h : Returns o P) : Allows o P :=
  fun _ ha => h.of_eq ha

theorem Allows.pure {P : α → Prop} {a : α} (h : P a) : Allows (some a) P :=
  fun _ hb => Option.some.inj hb ▸ h

theorem Allows.mono {o : Option α} {P Q : α → Prop} (h : Allows o P) (hpq : ∀ a, P a → Q a) :
    Allows o Q := fun a ha => hpq a (h a ha)

theorem Allows.bind {o : Option α} {f : α → Option β} {P : α → Prop} {Q : β → Prop}
    (h : Allows o P) (hf : ∀ a, P a → Allows (f a) Q) : Allows (o >>= f) Q := by
  intro b hb
  rw [Option.bind_eq_bind, Option.bind_eq_some_iff] at hb
  obtain ⟨a, ha, hb⟩ := hb
  exact hf a (h a ha) b hb

/-- What is returned satisfies `P`, and something is returned if `c` holds. -/
def ReturnsIf (c : Prop) (o : Option α) (P : α → Prop) : Prop := (c → o.isSome) ∧ Allows o P

section
variable {c : Prop} {o : Option α} {P Q : α → Prop}

theorem Returns.returnsIf (h : Returns o P) : ReturnsIf c o P := ⟨fun _ => h.isSome, h.allows⟩

theorem ReturnsIf.returns (h : ReturnsIf c o P) (hc : c) : Returns o P := by
  obtain ⟨a, ha⟩ := Option.isSome_iff_exists.mp (h.1 hc)
  exact ⟨a, ha, h.2 a ha⟩

theorem ReturnsIf.pure {a : α} (h : P a) : ReturnsIf c (some a) P := (Returns.pure h).returnsIf

theorem ReturnsIf.mono (h : ReturnsIf c o P) (hpq : ∀ a, P a → Q a) : ReturnsIf c o Q :=
  ⟨h.1, h.2.mono hpq⟩

theorem ReturnsIf.of_imp {c' : Prop} (h : ReturnsIf c o P) (hc : c' → c) : ReturnsIf c' o P :=
  ⟨fun hc' => h.1 (hc hc'), h.2⟩

theorem ReturnsIf.map {f : α → β} {Q : β → Prop} (h : ReturnsIf c o P) (hf : ∀ a, P a → Q (f a)) :
    ReturnsIf c (o.map f) Q := by
  refine ⟨fun hc => ?_, fun b hb => ?_⟩
  · rw [Option.isSome_map]
    exact h.1 hc
  · obtain ⟨a, ha, rfl⟩ := Option.map_eq_some_iff.mp hb
    exact hf a (h.2 a ha)

theorem ReturnsIf.bind {f : α → Option β} {Q : β → Prop} (h : ReturnsIf c o P)
    (hf : ∀ a, P a → ReturnsIf c (f a) Q) : ReturnsIf c (o >>= f) Q := by
  refine ⟨fun hc => ?_, h.2.bind fun a ha => (hf a ha).2⟩
  exact ((h.returns hc).bind fun a ha => (hf a ha).returns hc).isSome

end

section Loops
variable {τ : Type v} {body : σ → Option (τ ⊕ σ)}

/-- A loop whose body breaks with a result or goes on with a new state; the fuel
bounds the rounds. -/
def loop (body : σ → Option (τ ⊕ σ)) : Nat → σ → Option τ
  | 0, _ => none
  | fuel + 1, s =>
      match body s with
      | none => none
      | some (.inl t) => some t
      | some (.inr s) => loop body fuel s

/-- A loop keeps its invariant; if `c` makes a measure fall in every round, the
measure is fuel enough. -/
theorem loop_returnsIf {c : Prop} {P : σ → Prop} {Q : τ → Prop} (measure : σ → Nat) {fuel : Nat}
    {s : σ} (h : P s) (hfuel : c → measure s < fuel)
    (hbody : ∀ s, P s →
      Returns (body s) (Sum.elim Q fun s' => P s' ∧ (c → measure s' < measure s))) :
    ReturnsIf c (loop body fuel s) Q := by
  induction fuel generalizing s with
  | zero => exact ⟨fun hc => absurd (hfuel hc) (Nat.not_lt_zero _), fun _ ht => nomatch ht⟩
  | succ fuel ih =>
      obtain ⟨r, hr, hs⟩ := hbody s h
      rw [loop, hr]
      cases r with
      | inl t => exact .pure hs
      | inr s' =>
          exact ih hs.1 fun hc => Nat.lt_of_lt_of_le (hs.2 hc) (Nat.le_of_lt_succ (hfuel hc))

/-- A measure that falls in every round is fuel enough. -/
theorem loop_returns {P : σ → Prop} {Q : τ → Prop} (measure : σ → Nat) {fuel : Nat} {s : σ}
    (h : P s) (hfuel : measure s < fuel)
    (hbody : ∀ s, P s →
      Returns (body s) (Sum.elim Q fun s' => P s' ∧ measure s' < measure s)) :
    Returns (loop body fuel s) Q := by
  refine ReturnsIf.returns (loop_returnsIf measure h (fun _ => hfuel) fun s hs => ?_) trivial
  refine (hbody s hs).mono fun r hr => ?_
  cases r with
  | inl t => exact hr
  | inr s' => exact ⟨hr.1, fun _ => hr.2⟩

/-- Partial-correctness loop rule, for bodies that need not return. -/
theorem loop_allows {P : σ → Prop} {Q : τ → Prop} {fuel : Nat} {s : σ} (h : P s)
    (hbody : ∀ s, P s → Allows (body s) (Sum.elim Q P)) : Allows (loop body fuel s) Q := by
  induction fuel generalizing s with
  | zero => exact fun _ ht => nomatch ht
  | succ fuel ih =>
      rw [loop]
      cases hr : body s with
      | none => exact fun _ ht => nomatch ht
      | some r =>
          have hs := hbody s h r hr
          cases r with
          | inl t => exact .pure hs
          | inr s' => exact ih hs

/-- A loop that goes on from every state of an invariant does not end. -/
theorem loop_diverges {P : σ → Prop} {s : σ} (h : P s)
    (hbody : ∀ s, P s → ∃ s', body s = some (.inr s') ∧ P s') (fuel : Nat) :
    loop body fuel s = none := by
  induction fuel generalizing s with
  | zero => rfl
  | succ fuel ih =>
      obtain ⟨s', hs, hp⟩ := hbody s h
      rw [loop, hs]
      exact ih hp

/-- A loop whose body is that of another one, on what it sees of the states. -/
theorem loop_map {σ' : Type u} {τ' : Type v} {body' : σ' → Option (τ' ⊕ σ')} (f : σ → σ') (g : τ → τ')
    (hbody : ∀ s, body' (f s) = (body s).map (Sum.map g f)) (fuel : Nat) (s : σ) :
    loop body' fuel (f s) = (loop body fuel s).map g := by
  induction fuel generalizing s with
  | zero => rfl
  | succ fuel ih =>
      rw [loop, loop, hbody]
      cases body s with
      | none => rfl
      | some r =>
          cases r with
          | inl t => rfl
          | inr s' => exact ih s'

end Loops

section Runs
variable {Op : Type v} (step : σ → Op → Option σ) (ok : σ → Op → Prop)

/-- States reached from `s₀` by steps that return and meet the side condition. -/
inductive Reaches (s₀ : σ) : σ → Prop
  | refl : Reaches s₀ s₀
  | step {s s' : σ} {a : Op} : Reaches s₀ s → ok s a → step s a = some s' → Reaches s₀ s'

variable {step ok}

/-- An invariant that holds at the start and that every admitted step keeps
holds in every state a run reaches. -/
theorem Reaches.invariant {P : σ → Prop} {s₀ s : σ} (h : Reaches step ok s₀ s) (h₀ : P s₀)
    (hstep : ∀ s a s', P s → ok s a → step s a = some s' → P s') : P s := by
  induction h with
  | refl => exact h₀
  | step _ hok hs ih => exact hstep _ _ _ ih hok hs

/-- Executing a list of operations in order. -/
def runOps (step : σ → Op → Option σ) : σ → List Op → Option σ
  | s, [] => some s
  | s, a :: as => step s a >>= fun s' => runOps step s' as

theorem runOps_append (s : σ) (as bs : List Op) :
    runOps step s (as ++ bs) = runOps step s as >>= fun s' => runOps step s' bs := by
  induction as generalizing s with
  | nil => rfl
  | cons a as ih =>
      rw [List.cons_append, runOps, runOps, bind_assoc]
      exact congrArg (step s a >>= ·) (funext ih)

end Runs
end Fallible

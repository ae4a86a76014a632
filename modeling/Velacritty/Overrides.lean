import Velacritty.Fallible
import Mathlib.Data.List.Nodup

/-! CLI config overrides: the order in which the options are applied. The config, the
values and `SerdeReplace::replace` are parameters. -/
namespace Velacritty
open Fallible
variable {α C V E : Type} {replace : C → V → C × Except E Unit}

/-- `Vec::swap_remove`: the last element takes the place of the removed one. -/
def swapRemove (l : List α) (i : Nat) : List α :=
  match l.getLast? with
  | none => []
  | some last => (l.set i last).dropLast

structure ParsedOptions (V : Type) where
  configOptions : List (String × V)
  deriving DecidableEq, Repr

namespace ParsedOptions

/-- Parse CLI config overrides, ignoring invalid ones. -/
def fromOptions (parse : String → Option V) (options : List String) : ParsedOptions V :=
  ⟨options.filterMap fun option => (parse option).map fun parsed => (option, parsed)⟩

def overrideStep (replace : C → V → C × Except E Unit) :
    Nat × List (String × V) × C → Option (List (String × V) × C ⊕ Nat × List (String × V) × C)
  | (i, options, config) =>
      match options[i]? with
      | none => some (.inl (options, config))
      | some (_, parsed) =>
          match replace config parsed with
          | (config, .error _) => some (.inr (i, swapRemove options i, config))
          | (config, .ok _) => some (.inr (i + 1, options, config))

/-- Apply CLI config overrides, removing broken ones. -/
def overrideConfig (replace : C → V → C × Except E Unit) (options : ParsedOptions V) (config : C) :
    Option (ParsedOptions V × C) := do
  let (configOptions, config) ← loop (overrideStep replace) (options.configOptions.length + 1)
    (0, options.configOptions, config)
  some (⟨configOptions⟩, config)

/-- Apply CLI config overrides to a shared config. -/
def overrideConfigRc (replace : C → V → C × Except E Unit) (options : ParsedOptions V) (config : C) :
    Option (ParsedOptions V × C) :=
  if options.configOptions.isEmpty then some (options, config)
  else options.overrideConfig replace config

theorem overrideConfigRc_eq (options : ParsedOptions V) (config : C) :
    options.overrideConfigRc replace config = options.overrideConfig replace config := by
  obtain ⟨configOptions⟩ := options
  cases configOptions with
  | nil => rfl
  | cons option rest => rfl

end ParsedOptions

/-- CLI options: what the flags set in a config, and the parsed overrides. -/
structure Options (C V : Type) where
  flags : C → C
  configOptions : ParsedOptions V

namespace Options

def overrideConfig (replace : C → V → C × Except E Unit) (options : Options C V) (config : C) :
    Option (Options C V × C) := do
  let (configOptions, config) ← options.configOptions.overrideConfig replace (options.flags config)
  some ({ options with configOptions }, config)

/-- Attempt to reload the configuration file; `none` is a file that could not be loaded. -/
def reload (replace : C → V → C × Except E Unit) (options : Options C V) (loaded : Option C) :
    Option (Options C V × Option C) :=
  match loaded with
  | none => some (options, none)
  | some config => do
      let (options, config) ← options.overrideConfig replace config
      some (options, some config)

def reloaded (replace : C → V → C × Except E Unit) (options : Options C V) (loaded : Option C) :
    Option (Options C V) := (options.reload replace loaded).map Prod.fst

end Options

/-! ### What is left of the options -/

section Drawn
variable {p : α → Bool} {l rest kept : List α} {x : α}

/-- What is kept, in which order, if the last element replaces each removed one. -/
inductive Drawn (p : α → Bool) : List α → List α → Prop
  | nil : Drawn p [] []
  | keep {x : α} {rest kept : List α} (h : p x = true) (hrest : Drawn p rest kept) :
      Drawn p (x :: rest) (x :: kept)
  | dropLast {x : α} (h : p x = false) : Drawn p [x] []
  | drop {x last : α} {init kept : List α} (h : p x = false)
      (hrest : Drawn p (last :: init) kept) : Drawn p (x :: (init ++ [last])) kept

/-- At most one kept element comes after each removed one. -/
def Settled (p : α → Bool) (l : List α) : Prop :=
  ∀ before x after, l = before ++ x :: after → p x = false → (after.filter p).length ≤ 1

theorem settled_cons : Settled p (x :: rest) ↔
    (p x = false → (rest.filter p).length ≤ 1) ∧ Settled p rest := by
  refine ⟨fun h => ⟨h [] x rest rfl, fun before y after hl => ?_⟩, fun h before y after hl => ?_⟩
  · exact h (x :: before) y after (congrArg (x :: ·) hl)
  · cases before with
    | nil =>
        obtain ⟨rfl, rfl⟩ := List.cons.inj hl
        exact h.1
    | cons z before =>
        obtain ⟨rfl, rfl⟩ := List.cons.inj hl
        exact h.2 before y after rfl

theorem settled_of_forall (h : ∀ x ∈ l, p x = true) : Settled p l := by
  intro before x after hl hx
  have hmem : x ∈ l := hl ▸ List.mem_append_right _ List.mem_cons_self
  exact absurd ((h x hmem).symm.trans hx) (Bool.noConfusion ·)

theorem settled_of_length (h : (l.filter p).length ≤ 1) : Settled p l := by
  intro before x after hl _
  have hsub : (after.filter p).Sublist (l.filter p) := by
    rw [hl]
    exact ((List.sublist_cons_self x after).trans (List.sublist_append_right before _)).filter p
  exact Nat.le_trans hsub.length_le h

/-- Lists of at most one element that have the same elements are equal. -/
theorem eq_of_perm_of_length {a b : List α} (h : a.Perm b) (hlen : b.length ≤ 1) : a = b := by
  cases b with
  | nil => exact h.eq_nil
  | cons y ys =>
      have hnil : ys = [] := List.length_eq_zero_iff.mp (by rw [List.length_cons] at hlen; omega)
      subst hnil
      exact List.perm_singleton.mp h

theorem filter_cons_perm (init : List α) (last : α) :
    ((last :: init).filter p).Perm ((init ++ [last]).filter p) :=
  (List.perm_append_singleton last init).symm.filter p

/-- In a settled list the order does not change. -/
theorem Drawn.eq_filter (h : Drawn p l kept) (hl : Settled p l) : kept = l.filter p := by
  induction h with
  | nil => rfl
  | keep hx _ ih =>
      rw [List.filter_cons_of_pos hx, ih (settled_cons.mp hl).2]
  | dropLast hx => rw [List.filter_cons_of_neg (by simp [hx]), List.filter_nil]
  | @drop x last init kept hx _ ih =>
      have hlen := (settled_cons.mp hl).1 hx
      have hperm := filter_cons_perm (p := p) init last
      have hrest : (x :: (init ++ [last])).filter p = (init ++ [last]).filter p :=
        List.filter_cons_of_neg (by simp [hx])
      rw [ih (settled_of_length (hperm.length_eq ▸ hlen)), hrest]
      exact eq_of_perm_of_length hperm hlen

/-- If the order of different elements does not change, then the list is settled. -/
theorem Drawn.settled (h : Drawn p l kept) (hl : l.Nodup) (heq : kept = l.filter p) :
    Settled p l := by
  induction h with
  | nil => exact settled_of_forall fun x hx => absurd hx List.not_mem_nil
  | @keep x rest kept hx hrest ih =>
      rw [List.filter_cons_of_pos hx] at heq
      refine settled_cons.mpr ⟨fun hno => ?_, ih hl.of_cons (List.cons.inj heq).2⟩
      exact absurd (hx.symm.trans hno) (Bool.noConfusion ·)
  | dropLast hx => exact settled_of_length (by rw [List.filter_cons_of_neg (by simp [hx])]; simp)
  | @drop x last init kept hx hrest ih =>
      rw [List.filter_cons_of_neg (by simp [hx])] at heq
      have hnodup : (last :: init).Nodup := (List.perm_append_singleton last init).nodup hl.of_cons
      have hlen : ((init ++ [last]).filter p).length ≤ 1 := by
        cases hlast : p last with
        | true =>
            -- The last element is applied first now: nothing may be kept before it.
            cases hrest with
            | keep _ hrest =>
                rw [List.filter_append, List.filter_cons_of_pos hlast, List.filter_nil] at heq ⊢
                cases hinit : init.filter p with
                | nil => simp
                | cons y ys =>
                    rw [hinit] at heq
                    have hmem : last ∈ init.filter p := by
                      rw [hinit, (List.cons.inj heq).1]
                      exact List.mem_cons_self
                    exact absurd (List.mem_of_mem_filter hmem) (List.nodup_cons.mp hnodup).1
            | dropLast hno => exact absurd (hlast.symm.trans hno) (Bool.noConfusion ·)
            | drop hno _ => exact absurd (hlast.symm.trans hno) (Bool.noConfusion ·)
        | false =>
            have hfilter : (init ++ [last]).filter p = (last :: init).filter p := by
              rw [List.filter_append, List.filter_cons_of_neg (by simp [hlast]),
                List.filter_cons_of_neg (by simp [hlast]), List.filter_nil, List.append_nil]
            have hsettled := (settled_cons.mp (ih hnodup (heq.trans hfilter))).1 hlast
            rw [hfilter, List.filter_cons_of_neg (by simp [hlast])]
            exact hsettled
      exact settled_cons.mpr ⟨fun _ => hlen, settled_of_length hlen⟩

theorem swapRemove_last (done : List α) (x : α) : swapRemove (done ++ [x]) done.length = done := by
  unfold swapRemove
  rw [List.getLast?_concat]
  simp only [List.set_append_right _ _ (Nat.le_refl _), Nat.sub_self, List.set_cons_zero,
    List.dropLast_concat]

theorem swapRemove_middle (done init : List α) (x last : α) :
    swapRemove (done ++ x :: (init ++ [last])) done.length = done ++ last :: init := by
  have hlast : (done ++ x :: (init ++ [last])).getLast? = some last := by
    rw [← List.cons_append, ← List.append_assoc, List.getLast?_concat]
  unfold swapRemove
  rw [hlast]
  simp only [List.set_append_right _ _ (Nat.le_refl _), Nat.sub_self, List.set_cons_zero]
  rw [← List.cons_append, ← List.append_assoc, List.dropLast_concat]

end Drawn

/-! ### Overriding -/

namespace ParsedOptions
variable {accepts : V → Bool} {options : ParsedOptions V}

/-- Whether an option is rejected depends on the option only, and a rejected one leaves
the config as it is. -/
structure Judges (replace : C → V → C × Except E Unit) (accepts : V → Bool) : Prop where
  verdict : ∀ config value, (replace config value).2.isOk = accepts value
  rejected : ∀ config value, accepts value = false → (replace config value).1 = config

def accepted (accepts : V → Bool) (options : ParsedOptions V) : List (String × V) :=
  options.configOptions.filter fun option => accepts option.2

def applyAll (replace : C → V → C × Except E Unit) (config : C) (options : List (String × V)) : C :=
  options.foldl (fun config option => (replace config option.2).1) config

/-- The loop keeps what is drawn, and applies it in that order. -/
theorem loop_overrideStep (h : Judges replace accepts) {rest : List (String × V)} {fuel : Nat}
    (hfuel : rest.length < fuel) (done : List (String × V)) (config : C) :
    ∃ kept, Drawn (fun option => accepts option.2) rest kept ∧
      loop (overrideStep replace) fuel (done.length, done ++ rest, config) =
        some (done ++ kept, applyAll replace config kept) := by
  induction fuel generalizing rest done config with
  | zero => exact absurd hfuel (Nat.not_lt_zero _)
  | succ fuel ih =>
      cases rest with
      | nil =>
          refine ⟨[], .nil, ?_⟩
          rw [loop, overrideStep, List.getElem?_append_right (Nat.le_refl _), Nat.sub_self]
          rfl
      | cons x rest =>
          obtain ⟨option, parsed⟩ := x
          have hget : (done ++ (option, parsed) :: rest)[done.length]? = some (option, parsed) := by
            rw [List.getElem?_append_right (Nat.le_refl _), Nat.sub_self]
            rfl
          rw [List.length_cons, Nat.add_lt_add_iff_right] at hfuel
          have hverdict := h.verdict config parsed
          cases hreplace : replace config parsed with
          | mk config' result =>
              rw [hreplace] at hverdict
              cases result with
              | ok _ =>
                  obtain ⟨kept, hkept, hloop⟩ := ih hfuel (done ++ [(option, parsed)]) config'
                  refine ⟨(option, parsed) :: kept, .keep hverdict.symm hkept, ?_⟩
                  rw [loop, overrideStep, hget]
                  simp only [hreplace]
                  rw [List.length_append, List.append_assoc] at hloop
                  simp only [List.length_singleton, List.singleton_append] at hloop
                  rw [hloop, List.append_assoc, List.singleton_append, applyAll, applyAll,
                    List.foldl_cons, hreplace]
              | error _ =>
                  have hno : accepts parsed = false := hverdict.symm
                  have hsame : config' = config := by
                    have := h.rejected config parsed hno
                    rwa [hreplace] at this
                  have hround : loop (overrideStep replace) (fuel + 1)
                      (done.length, done ++ (option, parsed) :: rest, config) =
                      loop (overrideStep replace) fuel (done.length,
                        swapRemove (done ++ (option, parsed) :: rest) done.length, config) := by
                    rw [loop, overrideStep, hget]
                    simp only [hreplace, hsame]
                  rw [hround]
                  rcases List.eq_nil_or_concat rest with rfl | ⟨init, last, rfl⟩
                  · have hnil : ([] : List (String × V)).length < fuel := hfuel
                    obtain ⟨kept, hkept, hloop⟩ := ih hnil done config
                    rw [List.append_nil] at hloop
                    cases hkept
                    exact ⟨[], .dropLast hno, by rw [swapRemove_last, hloop]⟩
                  · rw [List.concat_eq_append] at hfuel ⊢
                    have hlen : (last :: init).length < fuel := by
                      rw [List.length_append, List.length_singleton] at hfuel
                      exact hfuel
                    obtain ⟨kept, hkept, hloop⟩ := ih hlen done config
                    exact ⟨kept, .drop hno hkept, by rw [swapRemove_middle, hloop]⟩

theorem overrideConfig_drawn (h : Judges replace accepts) (options : ParsedOptions V) (config : C) :
    Returns (options.overrideConfig replace config) fun r =>
      Drawn (fun option => accepts option.2) options.configOptions r.1.configOptions ∧
        r.2 = applyAll replace config r.1.configOptions := by
  obtain ⟨kept, hkept, hloop⟩ :=
    loop_overrideStep h (Nat.lt_succ_self options.configOptions.length) [] config
  unfold overrideConfig
  rw [show ((0 : Nat), options.configOptions, config) =
    (([] : List (String × V)).length, [] ++ options.configOptions, config) from rfl, hloop]
  exact .pure ⟨hkept, rfl⟩

inductive Tried (replace : C → V → C × Except E Unit) :
    C → List (String × V) → List (String × V) → C → Prop
  | done (config : C) : Tried replace config [] [] config
  | accept {config config' result : C} {option : String × V} {rest kept : List (String × V)}
      (h : replace config option.2 = (config', .ok ())) (hrest : Tried replace config' rest kept result) :
      Tried replace config (option :: rest) (option :: kept) result
  | reject {config config' result : C} {option : String × V} {rest kept : List (String × V)} {error : E}
      (h : replace config option.2 = (config', .error error))
      (hrest : Tried replace config' rest kept result) :
      Tried replace config (option :: rest) kept result

theorem loop_overrideStep_tried (replace : C → V → C × Except E Unit) {rest : List (String × V)} {fuel : Nat}
    (hfuel : rest.length < fuel) (done : List (String × V)) (config : C) :
    ∃ order kept result, order.Perm rest ∧ Tried replace config order kept result ∧
      loop (overrideStep replace) fuel (done.length, done ++ rest, config) = some (done ++ kept, result) := by
  induction fuel generalizing rest done config with
  | zero => exact absurd hfuel (Nat.not_lt_zero _)
  | succ fuel ih =>
      cases rest with
      | nil =>
          refine ⟨[], [], config, .nil, .done config, ?_⟩
          rw [loop, overrideStep, List.getElem?_append_right (Nat.le_refl _), Nat.sub_self]
          rfl
      | cons x rest =>
          obtain ⟨option, parsed⟩ := x
          have hget : (done ++ (option, parsed) :: rest)[done.length]? = some (option, parsed) := by
            rw [List.getElem?_append_right (Nat.le_refl _), Nat.sub_self]
            rfl
          rw [List.length_cons, Nat.add_lt_add_iff_right] at hfuel
          rcases hreplace : replace config parsed with ⟨config', error | ⟨⟩⟩
          · have hround : loop (overrideStep replace) (fuel + 1)
                (done.length, done ++ (option, parsed) :: rest, config) =
                loop (overrideStep replace) fuel (done.length,
                  swapRemove (done ++ (option, parsed) :: rest) done.length, config') := by
              rw [loop, overrideStep, hget]
              simp only [hreplace]
            rw [hround]
            rcases List.eq_nil_or_concat rest with rfl | ⟨init, last, rfl⟩
            · obtain ⟨order, kept, result, hperm, htried, hloop⟩ := ih hfuel done config'
              obtain rfl := hperm.eq_nil
              rw [List.append_nil] at hloop
              exact ⟨[(option, parsed)], kept, result, .refl _, .reject hreplace htried,
                by rw [swapRemove_last, hloop]⟩
            · rw [List.concat_eq_append] at hfuel ⊢
              have hlen : (last :: init).length < fuel := by
                rw [List.length_append, List.length_singleton] at hfuel
                exact hfuel
              obtain ⟨order, kept, result, hperm, htried, hloop⟩ := ih hlen done config'
              have hmoved : (last :: init).Perm (init ++ [last]) := (List.perm_append_singleton last init).symm
              exact ⟨(option, parsed) :: order, kept, result, (hperm.trans hmoved).cons _,
                .reject hreplace htried, by rw [swapRemove_middle, hloop]⟩
          · obtain ⟨order, kept, result, hperm, htried, hloop⟩ := ih hfuel (done ++ [(option, parsed)]) config'
            refine ⟨(option, parsed) :: order, (option, parsed) :: kept, result, hperm.cons _,
              .accept hreplace htried, ?_⟩
            rw [loop, overrideStep, hget]
            simp only [hreplace]
            rw [List.length_append, List.append_assoc] at hloop
            simp only [List.length_singleton, List.singleton_append] at hloop
            rw [hloop, List.append_assoc, List.singleton_append]

theorem overrideConfigRc_tried (replace : C → V → C × Except E Unit) (options : ParsedOptions V) (config : C) :
    Returns (options.overrideConfigRc replace config) fun r => ∃ order,
      order.Perm options.configOptions ∧ Tried replace config order r.1.configOptions r.2 := by
  obtain ⟨order, kept, result, hperm, htried, hloop⟩ :=
    loop_overrideStep_tried replace (Nat.lt_succ_self options.configOptions.length) [] config
  rw [overrideConfigRc_eq, overrideConfig]
  rw [show ((0 : Nat), options.configOptions, config) =
    (([] : List (String × V)).length, [] ++ options.configOptions, config) from rfl, hloop]
  exact .pure ⟨order, hperm, htried⟩

theorem Tried.mem {order kept : List (String × V)} {config result : C} (h : Tried replace config order kept result)
    {option : String × V} (halways : ∀ config, (replace config option.2).2.isOk = true)
    (hmem : option ∈ order) : option ∈ kept := by
  induction h with
  | done => exact hmem
  | accept h hrest ih =>
      rcases List.mem_cons.mp hmem with rfl | hmem
      · exact List.mem_cons_self
      · exact List.mem_cons_of_mem _ (ih hmem)
  | @reject config _ _ _ _ _ _ h hrest ih =>
      rcases List.mem_cons.mp hmem with rfl | hmem
      · have hok := halways config
        rw [h] at hok
        exact nomatch hok
      · exact ih hmem

/-- No rejected option comes before two accepted ones. -/
def RejectedLast (accepts : V → Bool) (options : ParsedOptions V) : Prop :=
  Settled (fun option : String × V => accepts option.2) options.configOptions

/-- The accepted options were applied in their original order, stay in that order, and are
applied in it again after any number of reloads. -/
structure InOrder (replace : C → V → C × Except E Unit) (accepts : V → Bool)
    (options : ParsedOptions V) (config : C) (r : ParsedOptions V × C) : Prop where
  applied : r.2 = applyAll replace config (options.accepted accepts)
  kept : r.1.configOptions = options.accepted accepts
  reapplied : ∀ (flags : C → C) (later : Options C V),
    Reaches (Options.reloaded replace) (fun _ _ => True) ⟨flags, r.1⟩ later →
    ∀ loaded, Returns (later.reload replace (some loaded)) fun s =>
      s.2 = some (applyAll replace (flags loaded) (options.accepted accepts))

theorem overrideConfig_all (h : Judges replace accepts) {os : List (String × V)}
    (hall : ∀ option ∈ os, accepts option.2 = true) (config : C) :
    overrideConfig replace ⟨os⟩ config = some (⟨os⟩, applyAll replace config os) := by
  obtain ⟨⟨⟨kept⟩, config'⟩, hr, hdrawn, hconfig⟩ := overrideConfig_drawn h ⟨os⟩ config
  have hkept : kept = os :=
    (hdrawn.eq_filter (settled_of_forall hall)).trans (List.filter_eq_self.mpr hall)
  rw [hr]
  simp only at hconfig
  rw [hconfig, hkept]

theorem reload_all (h : Judges replace accepts) {os : List (String × V)}
    (hall : ∀ option ∈ os, accepts option.2 = true) (flags : C → C) (loaded : C) :
    Options.reload replace ⟨flags, ⟨os⟩⟩ (some loaded) =
      some (⟨flags, ⟨os⟩⟩, some (applyAll replace (flags loaded) os)) := by
  simp only [Options.reload, Options.overrideConfig, overrideConfig_all h hall, Option.bind_eq_bind,
    Option.bind_some]

theorem inOrder_of_accepted (h : Judges replace accepts) (options : ParsedOptions V) (config : C) :
    InOrder replace accepts options config
      (⟨options.accepted accepts⟩, applyAll replace config (options.accepted accepts)) := by
  have hall : ∀ option ∈ options.accepted accepts, accepts option.2 = true := fun option hmem =>
    (List.mem_filter.mp hmem).2
  refine ⟨rfl, rfl, fun flags later hrun loaded => ?_⟩
  have hlater : later = ⟨flags, ⟨options.accepted accepts⟩⟩ := by
    refine hrun.invariant (P := fun o => o = ⟨flags, ⟨options.accepted accepts⟩⟩) rfl ?_
    rintro s loaded s' rfl - hs
    cases loaded with
    | none => exact (Option.some.inj hs).symm
    | some loaded =>
        rw [Options.reloaded, reload_all h hall] at hs
        exact (Option.some.inj hs).symm
  rw [hlater, reload_all h hall]
  exact .pure rfl

/-- The accepted options are applied and kept in order if no rejected one comes before two
accepted ones; if the options are all different, then only in that case. -/
theorem overrideConfig_inOrder (h : Judges replace accepts) (options : ParsedOptions V) (config : C) :
    Returns (options.overrideConfig replace config) fun r =>
      (options.RejectedLast accepts → InOrder replace accepts options config r) ∧
        (options.configOptions.Nodup → InOrder replace accepts options config r →
          options.RejectedLast accepts) := by
  refine (overrideConfig_drawn h options config).mono fun r hr => ?_
  obtain ⟨⟨kept⟩, config'⟩ := r
  obtain ⟨hdrawn, hconfig⟩ := hr
  simp only at hdrawn hconfig
  refine ⟨fun hlast => ?_, fun hnodup horder => hdrawn.settled hnodup horder.kept⟩
  have hkept : kept = options.accepted accepts := hdrawn.eq_filter hlast
  rw [hconfig, hkept]
  exact inOrder_of_accepted h options config

def setNumber (config : Nat) : Option Nat → Nat × Except Unit Unit
  | some number => (number, .ok ())
  | none => (config, .error ())

theorem setNumber_judges : Judges setNumber Option.isSome := by
  refine ⟨fun config value => ?_, fun config value hno => ?_⟩
  · cases value <;> rfl
  · cases value with
    | none => rfl
    | some number => cases hno

/-- One accepted option on each side of a rejected one. -/
theorem overrideConfig_inOrder_one :
    Returns (overrideConfig setNumber ⟨[("a=1", some 1), ("b=1", none), ("a=2", some 2)]⟩ 0)
      fun r => InOrder setNumber Option.isSome
        ⟨[("a=1", some 1), ("b=1", none), ("a=2", some 2)]⟩ 0 r ∧ r.2 = 2 := by
  refine (overrideConfig_inOrder setNumber_judges _ _).mono fun r hr => ?_
  have horder := hr.1 (settled_cons.mpr ⟨nofun, settled_cons.mpr ⟨fun _ => Nat.le_refl 1,
    settled_of_forall fun option hmem => List.mem_singleton.mp hmem ▸ rfl⟩⟩)
  exact ⟨horder, horder.applied⟩

/-- The rejected option comes first: the others change places, and the wrong one wins. -/
theorem overrideConfig_reorders : Judges setNumber Option.isSome ∧
    overrideConfig setNumber ⟨[("b=1", none), ("a=1", some 1), ("a=2", some 2)]⟩ 0 =
      some (⟨[("a=2", some 2), ("a=1", some 1)]⟩, 1) ∧
    ¬ InOrder setNumber Option.isSome ⟨[("b=1", none), ("a=1", some 1), ("a=2", some 2)]⟩ 0
      (⟨[("a=2", some 2), ("a=1", some 1)]⟩, 1) := by
  refine ⟨setNumber_judges, rfl, fun h => ?_⟩
  exact absurd h.applied (by decide)

end ParsedOptions
end Velacritty

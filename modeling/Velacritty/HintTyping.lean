import Velacritty.HintState

/-! Typing the label of a match selects that match. -/
namespace Velacritty
open Fallible
variable {Regex : Type} {search : VisibleSearch Regex} {t : Term} {hint : Hint Regex}
  {alphabet keys : List Char} {c : Char} {i count : Nat}

theorem mem_of_mem_sortMatches {found : List RegexMatch} {m : RegexMatch} (h : m ∈ sortMatches found) :
    m ∈ found :=
  (List.mem_insertionSort _).mp ((List.destutter_sublist _ _).subset h)

theorem remaining_append (keys rest : List Char) : remaining keys (keys ++ rest) = rest := by
  unfold remaining
  rw [if_pos, List.drop_left]
  exact ⟨by simp, List.take_left⟩

theorem remaining_head {label : List Char} (h : (remaining keys label).head? = some c) :
    ∃ rest, remaining keys label = c :: rest ∧ label = keys ++ c :: rest := by
  obtain ⟨rest, hrest⟩ := List.head?_eq_some_iff.mp h
  refine ⟨rest, hrest, ?_⟩
  unfold remaining at hrest
  split at hrest
  · next hkeys =>
      rw [← hrest, ← hkeys.2, List.length_take, Nat.min_eq_left hkeys.1, List.take_append_drop]
  · exact nomatch hrest

/-- The last match has the first label. -/
def labelOf (alphabet : List Char) (count i : Nat) : List Char :=
  HintLabels.label alphabet (count - 1 - i)

theorem labelMatches_returns (halphabet : 2 ≤ alphabet.length) {generator : HintLabels}
    {old : List (List Char)} (hold : old.length = count) (hi : i ≤ count)
    (hg : generator.Before alphabet (count - i)) :
    Returns (labelMatches keys i generator old) fun labels => labels.length = count ∧
      (∀ j, i ≤ j → labels[j]? = old[j]?) ∧
      ∀ j < i, labels[j]? = some (remaining keys (labelOf alphabet count j)) := by
  induction i generalizing generator old with
  | zero => exact .pure ⟨hold, fun j _ => rfl, nofun⟩
  | succ i ih =>
      refine (hg.next halphabet).bind fun r hr => ?_
      obtain ⟨hlabel, hnext⟩ := hr
      have hnumber : count - (i + 1) + 1 = count - i := by omega
      rw [hnumber] at hnext
      have hset : (old.set i (remaining keys r.1)).length = count := by
        rw [List.length_set, hold]
      apply (ih hset (by omega) hnext).mono
      rintro labels ⟨hlength, hafter, hbefore⟩
      refine ⟨hlength, fun j hj => ?_, fun j hj => ?_⟩
      · rw [hafter j (by omega), List.getElem?_set_ne (by omega)]
      · rcases Nat.lt_or_eq_of_le (Nat.le_of_lt_succ hj) with hlt | rfl
        · exact hbefore j hlt
        · have hat : count - (j + 1) = count - 1 - j := by omega
          rw [hafter j (Nat.le_refl j), List.getElem?_set_self (by omega), hlabel, hat, labelOf]

namespace HintState
variable {s : HintState Regex} {events : List HintEvent}

structure Selecting (hint : Hint Regex) (alphabet keys : List Char) (s : HintState Regex) :
    Prop where
  hint_eq : s.hint = some hint
  alphabet_eq : s.alphabet = alphabet
  keys_eq : s.keys = keys

def Resting (hint : Hint Regex) (alphabet : List Char) (s : HintState Regex) : Prop :=
  s.hint = none ∨ ∃ keys, s.Selecting hint alphabet keys

structure Labelled (hintMatches : List RegexMatch) (alphabet keys : List Char)
    (s : HintState Regex) : Prop where
  hintMatches_eq : s.hintMatches = hintMatches
  length_eq : s.labels.length = hintMatches.length
  label_eq : ∀ i < hintMatches.length,
    s.labels[i]? = some (remaining keys (labelOf alphabet hintMatches.length i))

theorem updateMatches_returns (halphabet : 2 ≤ alphabet.length)
    (hs : s.Selecting hint alphabet keys) (hfound : search.find t hint ≠ []) :
    Returns (s.updateMatches search t) fun s' => s'.Selecting hint alphabet keys ∧
      s'.Labelled (sortMatches (search.find t hint)) alphabet keys := by
  obtain ⟨hhint, rfl, rfl⟩ := hs
  simp only [updateMatches, hhint, if_neg hfound]
  refine (HintLabels.new_before halphabet).bind fun generator hg => ?_
  have hresize : (s.labels.take (sortMatches (search.find t hint)).length ++
      List.replicate ((sortMatches (search.find t hint)).length - s.labels.length) []).length =
        (sortMatches (search.find t hint)).length := by
    rw [List.length_append, List.length_take, List.length_replicate]
    omega
  rw [← Nat.sub_self (sortMatches (search.find t hint)).length] at hg
  refine (labelMatches_returns halphabet hresize (Nat.le_refl _) hg).bind fun labels hlabels => ?_
  exact .pure ⟨⟨rfl, rfl, rfl⟩, rfl, hlabels.1, hlabels.2.2⟩

/-- The last label that starts with a character is that of a match whose label starts with the keys
and the character. -/
theorem Labelled.findLabel {hintMatches : List RegexMatch}
    (hs : s.Labelled hintMatches alphabet keys) (hi : i < hintMatches.length)
    (htyped : keys ++ [c] <+: labelOf alphabet hintMatches.length i) :
    ∃ j rest, s.findLabel c = some (c :: rest, j) ∧ j < hintMatches.length ∧
      labelOf alphabet hintMatches.length j = keys ++ c :: rest := by
  obtain ⟨rest, hrest⟩ := htyped
  rw [List.append_assoc, List.singleton_append] at hrest
  have hfound : (s.findLabel c).isSome := by
    unfold HintState.findLabel
    rw [List.find?_isSome]
    refine ⟨(c :: rest, i), ?_, by simp⟩
    rw [List.mem_reverse, List.mem_zipIdx_iff_getElem?, hs.label_eq i hi, ← hrest, remaining_append]
  obtain ⟨⟨label, j⟩, hlabel⟩ := Option.isSome_iff_exists.mp hfound
  have hmem := List.mem_of_find?_eq_some hlabel
  have hstarts := List.find?_some hlabel
  have hhead : label.head? = some c := of_decide_eq_true hstarts
  rw [List.mem_reverse, List.mem_zipIdx_iff_getElem?] at hmem
  have hj : j < hintMatches.length := by
    rw [← hs.length_eq]
    exact (List.getElem?_eq_some_iff.mp hmem).1
  obtain rfl := Option.some.inj (hmem.symm.trans (hs.label_eq j hj))
  obtain ⟨rest', hrest', hlabelOf⟩ := remaining_head hhead
  refine ⟨j, rest', ?_, hj, hlabelOf⟩
  rw [hlabel, hrest']

/-- Two matches whose labels start each other are one. -/
theorem labelOf_unique (halphabet : 2 ≤ alphabet.length) (hnodup : alphabet.Nodup) {n i j : Nat}
    (hi : i < n) (hj : j < n)
    (hpre : labelOf alphabet n i <+: labelOf alphabet n j) : i = j := by
  have heq := HintLabels.label_prefixFree halphabet hnodup _ _ hpre
  omega

theorem keyboardInput_returns (halphabet : 2 ≤ alphabet.length) (hnodup : alphabet.Nodup)
    (hkey : c ≠ '\x08' ∧ c ≠ '\x1f' ∧ c ≠ '\x1b' ∧ c ≠ '\x03') (ht : t.WF)
    (hgrid : ∀ m ∈ search.find t hint, t.InGrid m.start) (hs : s.Selecting hint alphabet keys)
    {hintMatches : List RegexMatch} (hfound : sortMatches (search.find t hint) = hintMatches)
    (hi : i < hintMatches.length) (htyped : keys ++ [c] <+: labelOf alphabet hintMatches.length i) :
    Returns (s.keyboardInput search t c) fun r =>
      if keys ++ [c] = labelOf alphabet hintMatches.length i then
        (∃ selected, r.1 = some selected ∧ hintMatches[i]? = some selected.bounds) ∧
          r.2.Resting hint alphabet
      else r.1 = none ∧ r.2.Selecting hint alphabet (keys ++ [c]) := by
  have hne : search.find t hint ≠ [] := by
    intro heq
    rw [← hfound, heq] at hi
    exact absurd hi (by simp [sortMatches])
  unfold keyboardInput
  simp only
  rw [if_neg (by tauto), if_neg (by tauto)]
  refine (updateMatches_returns halphabet hs hne).bind fun s' hs' => ?_
  obtain ⟨hselecting, hlabelled⟩ := hs'
  rw [hfound] at hlabelled
  obtain ⟨j, rest, hlabel, hj, hlabelOf⟩ := hlabelled.findLabel hi htyped
  rw [hselecting.hint_eq]
  simp only [hlabel, List.length_cons, Nat.add_eq_right, List.length_eq_zero_iff]
  split
  · next hrest =>
      subst hrest
      rw [← hlabelOf] at htyped
      obtain rfl := (labelOf_unique halphabet hnodup hj hi htyped).symm
      have hmatch : hintMatches[i]? = some hintMatches[i] := List.getElem?_eq_getElem hi
      have hmem : hintMatches[i] ∈ search.find t hint := by
        apply mem_of_mem_sortMatches
        rw [hfound]
        exact List.getElem_mem hi
      obtain ⟨cell, hcell⟩ := Term.cellAt_inGrid ht (hgrid _ hmem)
      simp only [hlabelled.hintMatches_eq, hmatch, hcell, Option.bind_eq_bind, Option.bind_some]
      refine .pure ?_
      rw [if_pos hlabelOf.symm]
      refine ⟨⟨_, rfl, rfl⟩, ?_⟩
      split
      · exact .inr ⟨[], rfl, hselecting.alphabet_eq, rfl⟩
      · exact .inl rfl
  · next hrest =>
      refine .pure ?_
      rw [if_neg]
      · refine ⟨rfl, rfl, hselecting.alphabet_eq, ?_⟩
        rw [← hselecting.keys_eq]
      · intro heq
        have hpre : labelOf alphabet hintMatches.length i <+:
            labelOf alphabet hintMatches.length j := by
          rw [← heq, hlabelOf]
          exact ⟨rest, by simp⟩
        obtain rfl := labelOf_unique halphabet hnodup hi hj hpre
        rw [hlabelOf, List.append_cancel_left_eq] at heq
        exact hrest (List.cons.inj heq).2.symm

theorem handle_key (halphabet : 2 ≤ alphabet.length) (hnodup : alphabet.Nodup)
    (hkey : c ≠ '\x08' ∧ c ≠ '\x1f' ∧ c ≠ '\x1b' ∧ c ≠ '\x03') (ht : t.WF)
    (hgrid : ∀ m ∈ search.find t hint, t.InGrid m.start) (hs : s.Selecting hint alphabet keys)
    {hintMatches : List RegexMatch} (hfound : sortMatches (search.find t hint) = hintMatches)
    {m : RegexMatch} (hm : hintMatches[i]? = some m)
    (htyped : keys ++ [c] <+: labelOf alphabet hintMatches.length i) :
    Returns (s.handle search t (.key c)) fun r =>
      if keys ++ [c] = labelOf alphabet hintMatches.length i then
        r.1.map (·.bounds) = [m] ∧ r.2.Resting hint alphabet
      else r.1 = [] ∧ r.2.Selecting hint alphabet (keys ++ [c]) := by
  have hi : i < hintMatches.length := (List.getElem?_eq_some_iff.mp hm).1
  have hinput := keyboardInput_returns halphabet hnodup hkey ht hgrid hs hfound hi htyped
  refine hinput.bind fun r hr => .pure ?_
  by_cases hdone : keys ++ [c] = labelOf alphabet hintMatches.length i
  · rw [if_pos hdone] at hr ⊢
    obtain ⟨⟨selected, hselected, hbounds⟩, hresting⟩ := hr
    obtain rfl := Option.some.inj (hm.symm.trans hbounds)
    refine ⟨?_, hresting⟩
    rw [hselected]
    rfl
  · rw [if_neg hdone] at hr ⊢
    refine ⟨?_, hr.2⟩
    rw [hr.1]
    rfl

theorem updateMatches_resting (halphabet : 2 ≤ alphabet.length) (hs : s.Resting hint alphabet)
    (hfound : search.find t hint ≠ []) :
    Returns (s.updateMatches search t) (Resting hint alphabet) := by
  rcases hs with hnone | ⟨keys, hs⟩
  · simp only [updateMatches, hnone]
    exact .pure (.inl hnone)
  · exact (updateMatches_returns halphabet hs hfound).mono fun s' hs' => .inr ⟨keys, hs'.1⟩

/-- What is selected at an event comes before what is selected later. -/
theorem handleAll_cons {event : HintEvent} {P : List (HintMatch Regex) × HintState Regex → Prop}
    {Q : List (HintMatch Regex) → Prop} (h : Returns (s.handle search t event) P)
    (hlater : ∀ r, P r → Returns (r.2.handleAll search t events) fun later => Q (r.1 ++ later.1)) :
    Returns (s.handleAll search t (event :: events)) fun r => Q r.1 := by
  refine h.bind fun r hr => ?_
  exact (hlater r hr).bind fun later hq => .pure hq

/-- Nothing is selected without keys. -/
theorem handleAll_untyped (halphabet : 2 ≤ alphabet.length) (hs : s.Resting hint alphabet)
    (hfound : search.find t hint ≠ []) (huntyped : typed events = []) :
    Returns (s.handleAll search t events) fun r => r.1 = [] := by
  induction events generalizing s with
  | nil => exact .pure rfl
  | cons event events ih =>
      cases event with
      | key c => exact nomatch huntyped
      | update =>
          have hupdate : Returns (s.handle search t .update) fun r =>
              r.1 = [] ∧ r.2.Resting hint alphabet :=
            (updateMatches_resting halphabet hs hfound).bind fun s' hs' => .pure ⟨rfl, hs'⟩
          apply handleAll_cons (Q := (· = [])) hupdate
          rintro ⟨selected, s'⟩ ⟨rfl, hs'⟩
          exact ih hs' huntyped

theorem handleAll_typed (halphabet : 2 ≤ alphabet.length) (hnodup : alphabet.Nodup)
    (hkeys : ∀ c ∈ alphabet, c ≠ '\x08' ∧ c ≠ '\x1f' ∧ c ≠ '\x1b' ∧ c ≠ '\x03') (ht : t.WF)
    (hgrid : ∀ m ∈ search.find t hint, t.InGrid m.start) (hs : s.Selecting hint alphabet keys)
    {hintMatches : List RegexMatch} (hsorted : sortMatches (search.find t hint) = hintMatches)
    (hfound : search.find t hint ≠ []) {m : RegexMatch} (hm : hintMatches[i]? = some m)
    (hopen : keys ≠ labelOf alphabet hintMatches.length i)
    (htyped : keys ++ typed events <+: labelOf alphabet hintMatches.length i) :
    Returns (s.handleAll search t events) fun r => r.1.map (·.bounds) =
      if keys ++ typed events = labelOf alphabet hintMatches.length i then [m] else [] := by
  induction events generalizing s keys with
  | nil =>
      rw [typed, List.append_nil, if_neg hopen]
      exact .pure rfl
  | cons event events ih =>
      cases event with
      | update =>
          have hupdate : Returns (s.handle search t .update) fun r =>
              r.1 = [] ∧ r.2.Selecting hint alphabet keys :=
            (updateMatches_returns halphabet hs hfound).bind fun s' hs' => .pure ⟨rfl, hs'.1⟩
          apply handleAll_cons (Q := fun selected => selected.map (·.bounds) = _) hupdate
          rintro ⟨selected, s'⟩ ⟨rfl, hs'⟩
          exact ih hs' hopen htyped
      | key c =>
          have hsplit : keys ++ typed (.key c :: events) = keys ++ [c] ++ typed events := by
            rw [typed, List.append_assoc, List.singleton_append]
          rw [hsplit] at htyped ⊢
          have hfirst : keys ++ [c] <+: labelOf alphabet hintMatches.length i :=
            (List.prefix_append _ _).trans htyped
          have hc : c ∈ alphabet := by
            apply HintLabels.mem_of_mem_label halphabet
            apply hfirst.subset
            exact List.mem_append_right keys List.mem_cons_self
          have hkey := handle_key halphabet hnodup (hkeys c hc) ht hgrid hs hsorted hm hfirst
          by_cases hdone : keys ++ [c] = labelOf alphabet hintMatches.length i
          · have huntyped : typed events = [] := by
              rw [hdone] at htyped
              have hlength := htyped.length_le
              rw [List.length_append] at hlength
              apply List.eq_nil_of_length_eq_zero
              omega
            simp only [if_pos hdone] at hkey
            rw [huntyped, List.append_nil, if_pos hdone]
            apply handleAll_cons (Q := fun selected => selected.map (·.bounds) = [m]) hkey
            rintro ⟨selected, s'⟩ ⟨hselected, hs'⟩
            apply (handleAll_untyped halphabet hs' hfound huntyped).mono
            rintro later hlater
            rw [hlater, List.append_nil]
            exact hselected
          · simp only [if_neg hdone] at hkey
            apply handleAll_cons (Q := fun selected => selected.map (·.bounds) = _) hkey
            rintro ⟨selected, s'⟩ ⟨rfl, hs'⟩
            exact ih hs' hdone htyped

/-- The keys of a match's label select it when the last one is pressed, and nothing before, however
often the matches are drawn in between. -/
def TypingSelects (search : VisibleSearch Regex) (t : Term) (s : HintState Regex) : Prop :=
  s.labels.length = s.hintMatches.length ∧
    ∀ (i : Nat) (m : RegexMatch) (label : List Char),
      s.hintMatches[i]? = some m → s.labels[i]? = some label → ∀ events, typed events <+: label →
        Returns (s.handleAll search t events) fun r =>
          r.1.map (·.bounds) = if typed events = label then [m] else []

theorem updateMatches_typingSelects (halphabet : 2 ≤ alphabet.length) (hnodup : alphabet.Nodup)
    (hkeys : ∀ c ∈ alphabet, c ≠ '\x08' ∧ c ≠ '\x1f' ∧ c ≠ '\x1b' ∧ c ≠ '\x03') (ht : t.WF)
    (hgrid : ∀ m ∈ search.find t hint, t.InGrid m.start) (hs : s.Selecting hint alphabet []) :
    Returns (s.updateMatches search t) (TypingSelects search t) := by
  by_cases hfound : search.find t hint = []
  · simp only [updateMatches, hs.hint_eq, if_pos hfound]
    exact .pure ⟨rfl, nofun⟩
  · apply (updateMatches_returns halphabet hs hfound).mono
    rintro s' ⟨hselecting, hlabelled⟩
    have hcount := congrArg List.length hlabelled.hintMatches_eq
    refine ⟨hlabelled.length_eq.trans hcount.symm, ?_⟩
    intro i m label hm hlabel events htyped
    rw [hlabelled.hintMatches_eq] at hm
    have hi := (List.getElem?_eq_some_iff.mp hm).1
    obtain rfl := Option.some.inj ((hlabelled.label_eq i hi).symm.trans hlabel)
    have hwhole (label : List Char) : remaining [] label = label := remaining_append [] label
    rw [hwhole] at htyped ⊢
    have hne : [] ≠ labelOf alphabet (sortMatches (search.find t hint)).length i := by
      intro heq
      have hempty (n : Nat) : [] <+: HintLabels.label alphabet n := List.nil_prefix
      have hpre := hempty ((sortMatches (search.find t hint)).length - 1 - i + 1)
      rw [heq] at hpre
      have hnext := HintLabels.label_prefixFree halphabet hnodup _ _ hpre
      omega
    exact handleAll_typed halphabet hnodup hkeys ht hgrid hselecting rfl hfound hm hne htyped

end HintState

/-- A configured alphabet has two characters at least, and no key that controls the selection. -/
theorem hintsAlphabet_ok {width : Char → Option Nat} {value : List Char}
    (hcontrol : ∀ c ∈ ['\x08', '\x1f', '\x1b', '\x03'], width c = none)
    (h : hintsAlphabet width value = .ok alphabet) : 2 ≤ alphabet.length ∧
      ∀ c ∈ alphabet, c ≠ '\x08' ∧ c ≠ '\x1f' ∧ c ≠ '\x1b' ∧ c ≠ '\x03' := by
  unfold hintsAlphabet at h
  split_ifs at h with hwidth hcount
  obtain rfl := Except.ok.inj h
  refine ⟨Nat.not_lt.mp hcount, fun c hc => ?_⟩
  have hc : c ∉ ['\x08', '\x1f', '\x1b', '\x03'] := by
    intro hmem
    apply hwidth
    apply List.any_eq_true.mpr
    refine ⟨c, hc, ?_⟩
    rw [hcontrol c hmem]
    rfl
  simpa only [List.mem_cons, List.not_mem_nil, or_false, not_or] using hc

/-- The indices of the labels are in the alphabet, and no label starts with another one; so typing
the label of a match selects that match. -/
theorem labels_decodable (alphabet : List Char) (halphabet : 2 ≤ alphabet.length)
    (width : Char → Option Nat)
    (hcontrol : ∀ c ∈ ['\x08', '\x1f', '\x1b', '\x03'], width c = none) :
    (∃ code : Nat → List Nat, (∀ n, HintLabels.indexVector alphabet n = some (code n)) ∧
      (∀ n, ∀ index ∈ code n, index < alphabet.length) ∧ Function.Injective code ∧
        PrefixFree code) ∧
    ∀ value, hintsAlphabet width value = .ok alphabet → alphabet.Nodup →
      ∀ (Regex : Type) (search : VisibleSearch Regex) (t : Term) (hint : Hint Regex)
        (s : HintState Regex), t.WF → (∀ m ∈ search.find t hint, t.InGrid m.start) →
        s.alphabet = alphabet → s.keys = [] →
          Returns ((s.start hint).updateMatches search t) (HintState.TypingSelects search t) := by
  constructor
  · have hfree := HintLabels.code_prefixFree halphabet
    exact ⟨HintLabels.code alphabet, HintLabels.indexVector_eq halphabet,
      fun n index hindex => HintLabels.index_lt_of_mem_code halphabet hindex, hfree.injective, hfree⟩
  · intro value hvalue hnodup Regex search t hint s ht hgrid halphabet' hkeys
    obtain ⟨-, hfine⟩ := hintsAlphabet_ok hcontrol hvalue
    exact HintState.updateMatches_typingSelects halphabet hnodup hfine ht hgrid
      ⟨rfl, halphabet', hkeys⟩

/-- Two matches get the labels "ba" and "a". -/
theorem labels_decodable_two :
    ∃ (t : Term) (search : VisibleSearch Unit) (hint : Hint Unit) (s : HintState Unit),
      Term.Reachable .fullwidth .initial 1 4 t ∧
      ((s.start hint).updateMatches search t).map (·.labels) = some [['b', 'a'], ['a']] ∧
      Returns ((s.start hint).updateMatches search t) (HintState.TypingSelects search t) := by
  have hgrid : ∃ t, Term.Reachable .fullwidth .initial 1 4 t ∧ t.InGrid ⟨0, 0⟩ ∧ t.InGrid ⟨0, 2⟩ :=
    ⟨_, .refl, ⟨by decide, by decide, by decide⟩, ⟨by decide, by decide, by decide⟩⟩
  obtain ⟨t, hrun, hfirst, hsecond⟩ := hgrid
  refine ⟨t, ⟨fun _ => [], fun _ _ => [⟨⟨0, 2⟩, ⟨0, 3⟩⟩, ⟨⟨0, 0⟩, ⟨0, 1⟩⟩], fun _ _ m => [m]⟩,
    ⟨⟨some (), false⟩, true, false⟩, ⟨none, ['a', 'b'], [], [], []⟩, hrun, rfl, ?_⟩
  have hlabels := labels_decodable ['a', 'b'] (by decide)
    (fun c => if c.toNat < 32 then none else some 1) (by simp)
  refine hlabels.2 ['a', 'b'] rfl (by decide) Unit _ t _ _ (hrun.wf (by decide) (by decide)) ?_ rfl rfl
  intro m hm
  rcases List.mem_cons.mp hm with rfl | hm
  · exact hsecond
  · obtain rfl := List.mem_singleton.mp hm
    exact hfirst

end Velacritty

import Velacritty.Fallible
import Velacritty.Index
import Velacritty.MachineInts
import Velacritty.PrefixCodes

/-! The labels of hints: a counter whose lowest digit marks the end of a label. -/
namespace Velacritty
open Fallible

/-- Generator for creating new hint labels. -/
structure HintLabels where
  /-- Full character set available. -/
  alphabet : List Char
  /-- Alphabet indices for the next label. -/
  indices : List Nat
  /-- Point separating the alphabet's head and tail characters. -/
  splitPoint : Nat
  deriving DecidableEq, Repr

namespace HintLabels
variable {g : HintLabels} {alphabet : List Char} {splitPoint alphabetLen n : Nat} {rest : List Nat}

/-- Create a new label generator, with half of the elements in the alphabet reserved for the tail
of the hint label. -/
def new (alphabet : List Char) : Option HintLabels := do
  let last ← usub alphabet.length 1
  -- The product with 0.5 is exact, and the cast to `usize` rounds down.
  some ⟨alphabet, [0], f32OfNat last / 2⟩

/-- Increment all characters but the last one in reverse order. -/
def incrementHead (splitPoint alphabetLen : Nat) : List Nat → List Nat
  | [] => [splitPoint + 1]
  | index :: rest =>
      if index + 1 = alphabetLen then (splitPoint + 1) :: incrementHead splitPoint alphabetLen rest
      else (index + 1) :: rest

def increment (g : HintLabels) : Option HintLabels :=
  match g.indices with
  | [] => none
  | tail :: rest =>
      some { g with
        indices :=
          if tail < g.splitPoint then (tail + 1) :: rest
          else 0 :: incrementHead g.splitPoint g.alphabet.length rest }

def next (g : HintLabels) : Option (List Char × HintLabels) := do
  let characters ← g.indices.reverse.mapM fun index => g.alphabet[index]?
  let g ← g.increment
  some (characters, g)

def after (g : HintLabels) : Nat → Option HintLabels
  | 0 => some g
  | n + 1 => do
      let g ← g.after n
      let (_, g) ← g.next
      some g

/-- The alphabet indices of a label, by the label's number. -/
def indexVector (alphabet : List Char) (n : Nat) : Option (List Nat) := do
  let g ← new alphabet
  let g ← g.after n
  some g.indices.reverse

/-- The value of the indices of all characters but the last one, as the digits of a counter that
has no zero. -/
def headRank (splitPoint alphabetLen : Nat) : List Nat → Nat
  | [] => 0
  | index :: rest =>
      index - splitPoint + (alphabetLen - splitPoint - 1) * headRank splitPoint alphabetLen rest

/-- The indices are of characters for all but the last place. -/
def InHead (splitPoint alphabetLen : Nat) (rest : List Nat) : Prop :=
  ∀ index ∈ rest, splitPoint < index ∧ index < alphabetLen

theorem inHead_cons {index : Nat} : InHead splitPoint alphabetLen (index :: rest) ↔
    (splitPoint < index ∧ index < alphabetLen) ∧ InHead splitPoint alphabetLen rest :=
  List.forall_mem_cons

theorem InHead.incrementHead (hsplit : splitPoint + 1 < alphabetLen)
    (h : InHead splitPoint alphabetLen rest) :
    InHead splitPoint alphabetLen (incrementHead splitPoint alphabetLen rest) := by
  induction rest with
  | nil =>
      intro index hindex
      obtain rfl := List.mem_singleton.mp hindex
      exact ⟨Nat.lt_succ_self _, hsplit⟩
  | cons digit rest ih =>
      obtain ⟨hdigit, hrest⟩ := inHead_cons.mp h
      unfold HintLabels.incrementHead
      split
      · apply inHead_cons.mpr
        exact ⟨⟨Nat.lt_succ_self _, hsplit⟩, ih hrest⟩
      · apply inHead_cons.mpr
        constructor
        · constructor
          · omega
          · omega
        · exact hrest

theorem headRank_incrementHead (hsplit : splitPoint + 1 < alphabetLen)
    (h : InHead splitPoint alphabetLen rest) :
    headRank splitPoint alphabetLen (incrementHead splitPoint alphabetLen rest) =
      headRank splitPoint alphabetLen rest + 1 := by
  induction rest with
  | nil =>
      simp only [incrementHead, headRank]
      omega
  | cons digit rest ih =>
      obtain ⟨hdigit, hrest⟩ := inHead_cons.mp h
      unfold incrementHead
      split
      · next hlimit =>
          rw [headRank, ih hrest, headRank, Nat.mul_succ]
          omega
      · rw [headRank, headRank]
        omega

structure Sound (alphabet : List Char) (splitPoint n : Nat) (g : HintLabels) : Prop where
  alphabet_eq : g.alphabet = alphabet
  splitPoint_eq : g.splitPoint = splitPoint
  indices : ∃ tail rest, g.indices = tail :: rest ∧ tail ≤ splitPoint ∧
    InHead splitPoint alphabet.length rest ∧
    n = tail + (splitPoint + 1) * headRank splitPoint alphabet.length rest

theorem Sound.increment (hsplit : splitPoint + 1 < alphabet.length)
    (hg : g.Sound alphabet splitPoint n) :
    Returns g.increment (Sound alphabet splitPoint (n + 1)) := by
  obtain ⟨halphabet, hpoint, tail, rest, hindices, htail, hrest, hn⟩ := hg
  unfold HintLabels.increment
  rw [hindices]
  refine .pure ⟨halphabet, hpoint, ?_⟩
  rw [hpoint, halphabet]
  split
  · refine ⟨tail + 1, rest, rfl, ?_, hrest, ?_⟩
    · omega
    · omega
  · refine ⟨0, _, rfl, Nat.zero_le _, hrest.incrementHead hsplit, ?_⟩
    rw [headRank_incrementHead hsplit hrest, Nat.mul_succ]
    omega

theorem Sound.index_lt (hsplit : splitPoint + 1 < alphabet.length)
    (hg : g.Sound alphabet splitPoint n) : ∀ index ∈ g.indices, index < alphabet.length := by
  obtain ⟨-, -, tail, rest, hindices, htail, hrest, -⟩ := hg
  intro index hindex
  rw [hindices] at hindex
  rcases List.mem_cons.mp hindex with rfl | hindex
  · omega
  · exact (hrest index hindex).2

def spell (alphabet : List Char) (vector : List Nat) : List Char :=
  vector.map fun index => alphabet.getD index ' '

theorem getD_of_lt (alphabet : List Char) {index : Nat} (h : index < alphabet.length) :
    alphabet.getD index ' ' = alphabet[index] := by
  rw [List.getD_eq_getElem?_getD, List.getElem?_eq_getElem h, Option.getD_some]

theorem mapM_spell (alphabet : List Char) {vector : List Nat}
    (h : ∀ index ∈ vector, index < alphabet.length) :
    vector.mapM (fun index => alphabet[index]?) = some (spell alphabet vector) := by
  induction vector with
  | nil => rfl
  | cons index vector ih =>
      obtain ⟨hindex, hvector⟩ := List.forall_mem_cons.mp h
      rw [List.mapM_cons, ih hvector, List.getElem?_eq_getElem hindex]
      simp only [spell, List.map_cons, getD_of_lt alphabet hindex, Option.bind_eq_bind, Option.bind_some, Option.pure_def]

theorem Sound.next (hsplit : splitPoint + 1 < alphabet.length)
    (hg : g.Sound alphabet splitPoint n) : Returns g.next fun r =>
      r.1 = spell alphabet g.indices.reverse ∧ r.2.Sound alphabet splitPoint (n + 1) := by
  have hrange : ∀ index ∈ g.indices.reverse, index < alphabet.length := by
    intro index hindex
    exact hg.index_lt hsplit index (List.mem_reverse.mp hindex)
  unfold HintLabels.next
  rw [hg.alphabet_eq, mapM_spell alphabet hrange]
  exact (hg.increment hsplit).bind fun g' hg' => .pure ⟨rfl, hg'⟩

theorem Sound.after (hsplit : splitPoint + 1 < alphabet.length)
    (hg : g.Sound alphabet splitPoint n) (count : Nat) :
    Returns (g.after count) (Sound alphabet splitPoint (n + count)) := by
  induction count with
  | zero => exact .pure hg
  | succ count ih =>
      refine ih.bind fun g' hg' => ?_
      exact (hg'.next hsplit).bind fun r hr => .pure hr.2

/-- The tail of the alphabet leaves a character for the other places. -/
theorem new_sound (halphabet : 2 ≤ alphabet.length) : ∃ splitPoint,
    splitPoint + 1 < alphabet.length ∧ Returns (new alphabet) (Sound alphabet splitPoint 0) := by
  have hround := f32OfNat_le (alphabet.length - 1)
  refine ⟨f32OfNat (alphabet.length - 1) / 2, by omega, ?_⟩
  unfold new
  rw [usub_of_le (by omega)]
  exact .pure ⟨rfl, rfl, 0, [], rfl, Nat.zero_le _, nofun, rfl⟩

/-- The generator that gives the label with a number next. -/
def Before (alphabet : List Char) (n : Nat) (g : HintLabels) : Prop :=
  ∃ g₀, new alphabet = some g₀ ∧ g₀.after n = some g

theorem Before.unique {g' : HintLabels} (h : Before alphabet n g) (h' : Before alphabet n g') :
    g = g' := by
  obtain ⟨g₀, hnew, hafter⟩ := h
  obtain ⟨g₁, hnew', hafter'⟩ := h'
  obtain rfl := Option.some.inj (hnew.symm.trans hnew')
  exact Option.some.inj (hafter.symm.trans hafter')

/-- The alphabet indices of a label, by its number. -/
def code (alphabet : List Char) (n : Nat) : List Nat := (indexVector alphabet n).getD []

def label (alphabet : List Char) (n : Nat) : List Char := spell alphabet (code alphabet n)

theorem before_sound (halphabet : 2 ≤ alphabet.length) : ∃ splitPoint,
    splitPoint + 1 < alphabet.length ∧
      ∀ n, ∃ g, Before alphabet n g ∧ g.Sound alphabet splitPoint n := by
  obtain ⟨splitPoint, hsplit, hnew⟩ := new_sound halphabet
  refine ⟨splitPoint, hsplit, fun n => ?_⟩
  obtain ⟨g₀, hg₀, hsound⟩ := hnew
  obtain ⟨g, hg, hafter⟩ := hsound.after hsplit n
  rw [Nat.zero_add] at hafter
  exact ⟨g, ⟨g₀, hg₀, hg⟩, hafter⟩

theorem Before.indexVector_eq (h : Before alphabet n g) :
    indexVector alphabet n = some g.indices.reverse := by
  obtain ⟨g₀, hnew, hafter⟩ := h
  simp only [indexVector, hnew, hafter, Option.bind_eq_bind, Option.bind_some]

theorem Before.code_eq (h : Before alphabet n g) : code alphabet n = g.indices.reverse := by
  unfold code
  rw [h.indexVector_eq, Option.getD_some]

/-- The first label is the first one of a new generator. -/
theorem new_before (halphabet : 2 ≤ alphabet.length) :
    Returns (new alphabet) (Before alphabet 0) := by
  obtain ⟨splitPoint, -, g, hg, -⟩ := new_sound halphabet
  exact ⟨g, hg, g, hg, rfl⟩

/-- The labels come in the order of their numbers. -/
theorem Before.next (halphabet : 2 ≤ alphabet.length) (h : Before alphabet n g) :
    Returns g.next fun r => r.1 = label alphabet n ∧ Before alphabet (n + 1) r.2 := by
  obtain ⟨splitPoint, hsplit, hsound⟩ := before_sound halphabet
  obtain ⟨g', hbefore, hg'⟩ := hsound n
  obtain rfl := h.unique hbefore
  obtain ⟨r, hr, hlabel, -⟩ := hg'.next hsplit
  refine ⟨r, hr, ?_, ?_⟩
  · unfold label
    rw [h.code_eq]
    exact hlabel
  · obtain ⟨g₀, hnew, hafter⟩ := h
    refine ⟨g₀, hnew, ?_⟩
    simp only [after, hafter, hr, Option.bind_eq_bind, Option.bind_some]

theorem indexVector_eq (halphabet : 2 ≤ alphabet.length) (n : Nat) :
    indexVector alphabet n = some (code alphabet n) := by
  obtain ⟨splitPoint, -, hsound⟩ := before_sound halphabet
  obtain ⟨g, hg, -⟩ := hsound n
  rw [hg.code_eq, hg.indexVector_eq]

theorem index_lt_of_mem_code (halphabet : 2 ≤ alphabet.length) {index : Nat}
    (h : index ∈ code alphabet n) : index < alphabet.length := by
  obtain ⟨splitPoint, hsplit, hsound⟩ := before_sound halphabet
  obtain ⟨g, hg, hindices⟩ := hsound n
  rw [hg.code_eq] at h
  exact hindices.index_lt hsplit index (List.mem_reverse.mp h)

/-- No label has indices that start those of another one. -/
theorem code_prefixFree (halphabet : 2 ≤ alphabet.length) : PrefixFree (code alphabet) := by
  obtain ⟨splitPoint, hsplit, hsound⟩ := before_sound halphabet
  have hmarked : ∀ n, EndMarked (· ≤ splitPoint) (code alphabet n) := by
    intro n
    obtain ⟨g, hg, -, -, tail, rest, hindices, htail, hrest, -⟩ := hsound n
    refine ⟨rest.reverse, tail, ?_, htail, fun index hindex => ?_⟩
    · rw [hg.code_eq, hindices, List.reverse_cons]
    · exact Nat.not_le.mpr (hrest index (List.mem_reverse.mp hindex)).1
  apply prefixFree_of_endMarked _ hmarked
  intro m n heq
  obtain ⟨g, hg, -, -, tail, rest, hindices, -, -, hm⟩ := hsound m
  obtain ⟨g', hg', -, -, tail', rest', hindices', -, -, hn⟩ := hsound n
  rw [hg.code_eq, hg'.code_eq, List.reverse_inj, hindices, hindices'] at heq
  obtain ⟨rfl, rfl⟩ := List.cons.inj heq
  exact hm.trans hn.symm

/-- No label starts with another one, if the characters are distinct. -/
theorem label_prefixFree (halphabet : 2 ≤ alphabet.length) (hnodup : alphabet.Nodup) :
    PrefixFree (label alphabet) := by
  apply (code_prefixFree halphabet).map
  intro m n i hi j hj heq
  have hi := index_lt_of_mem_code halphabet hi
  have hj := index_lt_of_mem_code halphabet hj
  exact (List.getD_inj hi hj hnodup).mp heq

theorem mem_of_mem_label (halphabet : 2 ≤ alphabet.length) {c : Char} (h : c ∈ label alphabet n) :
    c ∈ alphabet := by
  obtain ⟨index, hindex, rfl⟩ := List.mem_map.mp h
  rw [getD_of_lt alphabet (index_lt_of_mem_code halphabet hindex)]
  exact List.getElem_mem _

end HintLabels
end Velacritty

import Mathlib.Data.List.Infix

/-! Codes whose words tell where they end. -/
namespace Velacritty
variable {ι α β : Type} {code : ι → List α} {ends : α → Prop} {v w : List α}

/-- No word starts with another one. -/
def PrefixFree (code : ι → List α) : Prop := ∀ i j, code i <+: code j → i = j

theorem PrefixFree.injective (h : PrefixFree code) : Function.Injective code := by
  intro i j heq
  exact h i j (heq ▸ List.prefix_refl _)

/-- The last letter of the word, and no other, ends a word. -/
def EndMarked (ends : α → Prop) (w : List α) : Prop :=
  ∃ body last, w = body ++ [last] ∧ ends last ∧ ∀ a ∈ body, ¬ ends a

theorem EndMarked.eq_of_isPrefix (hv : EndMarked ends v) (hw : EndMarked ends w) (h : v <+: w) :
    v = w := by
  obtain ⟨body, last, rfl, hlast, -⟩ := hv
  obtain ⟨body', last', rfl, -, hbody'⟩ := hw
  rcases List.prefix_concat_iff.mp h with heq | hinside
  · exact heq
  · have hmem : last ∈ body' := hinside.subset (List.mem_append_right _ List.mem_cons_self)
    exact absurd hlast (hbody' last hmem)

theorem prefixFree_of_endMarked (hcode : Function.Injective code)
    (h : ∀ i, EndMarked ends (code i)) : PrefixFree code := by
  intro i j hpre
  exact hcode ((h i).eq_of_isPrefix (h j) hpre)

theorem eq_of_map_eq {f : α → β} (hf : ∀ a ∈ v, ∀ b ∈ w, f a = f b → a = b)
    (h : v.map f = w.map f) : v = w := by
  induction v generalizing w with
  | nil => exact (List.map_eq_nil_iff.mp h.symm).symm
  | cons a v ih =>
      cases w with
      | nil => exact nomatch h
      | cons b w =>
          obtain ⟨hhead, htail⟩ := List.cons.inj h
          have hrest : v = w := ih (fun a ha b hb =>
            hf a (List.mem_cons_of_mem _ ha) b (List.mem_cons_of_mem _ hb)) htail
          rw [hf a List.mem_cons_self b List.mem_cons_self hhead, hrest]

/-- Writing the letters differently keeps the code prefix-free. -/
theorem PrefixFree.map {f : α → β} (h : PrefixFree code)
    (hf : ∀ i j, ∀ a ∈ code i, ∀ b ∈ code j, f a = f b → a = b) :
    PrefixFree fun i => (code i).map f := by
  intro i j hpre
  apply h i j
  obtain ⟨w, hw, heq⟩ := List.prefix_map_iff.mp hpre
  rw [eq_of_map_eq (fun a ha b hb => hf i j a ha b (hw.subset hb)) heq]
  exact hw

end Velacritty

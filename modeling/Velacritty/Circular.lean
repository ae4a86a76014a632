import Mathlib.Data.List.Rotate

/-! Lists read circularly, from a start that moves. Nothing here names a program. -/
namespace Circular
universe u
variable {α : Type u} {size start k m : Nat}

/-- Where the `k`-th element from the start is stored. -/
def index (size start k : Nat) : Nat := if size ≤ start + k then start + k - size else start + k

theorem index_lt (hz : start < size) (hk : k < size) : index size start k < size := by
  unfold index
  split <;> omega

theorem index_eq_mod (hz : start < size) (hk : k < size) : index size start k = (k + start) % size := by
  unfold index
  split
  · next hle =>
      rw [Nat.add_comm k start, Nat.mod_eq_sub_mod hle, Nat.mod_eq_of_lt]
      omega
  · next hlt =>
      rw [Nat.add_comm k start, Nat.mod_eq_of_lt]
      omega

theorem index_inj (hk : k < size) (hm : m < size)
    (h : index size start k = index size start m) : k = m := by
  unfold index at h
  split at h <;> split at h <;> omega

theorem getElem?_index {l : List α} (hz : start < l.length) (hk : k < l.length) :
    l[index l.length start k]? = (l.rotate start)[k]? := by
  rw [index_eq_mod hz hk, List.getElem?_rotate hk]

/-- Writing where an element is stored writes that element. -/
theorem rotate_set {l : List α} (hz : start < l.length) (hk : k < l.length) (x : α) :
    (l.set (index l.length start k) x).rotate start = (l.rotate start).set k x := by
  refine List.ext_getElem? fun m => ?_
  by_cases hm : m < l.length
  · have hset : m < (l.set (index l.length start k) x).length := by rwa [List.length_set]
    have hstart : start < (l.set (index l.length start k) x).length := by rwa [List.length_set]
    rw [← getElem?_index hstart hset, List.length_set, List.getElem?_set, List.getElem?_set,
      List.length_rotate]
    by_cases hkm : k = m
    · rw [if_pos (congrArg _ hkm), if_pos hkm, if_pos (index_lt hz hk), if_pos hk]
    · rw [if_neg fun h => hkm (index_inj hk hm h), if_neg hkm, getElem?_index hz hm]
  · rw [List.getElem?_eq_none, List.getElem?_eq_none]
    · simp only [List.length_set, List.length_rotate]
      omega
    · simp only [List.length_rotate, List.length_set]
      omega

/-- Exchange two elements, if both exist. -/
def exchange (l : List α) (i j : Nat) : List α :=
  match l[i]?, l[j]? with
  | some x, some y => (l.set i y).set j x
  | _, _ => l

theorem exchange_eq {l : List α} {i j : Nat} {x y : α} (hx : l[i]? = some x) (hy : l[j]? = some y) :
    exchange l i j = (l.set i y).set j x := by
  rw [exchange, hx, hy]

theorem rotate_exchange {l : List α} (hz : start < l.length) (hk : k < l.length) (hm : m < l.length) :
    (exchange l (index l.length start k) (index l.length start m)).rotate start =
      exchange (l.rotate start) k m := by
  obtain ⟨x, hx⟩ : ∃ x, l[index l.length start k]? = some x :=
    ⟨_, List.getElem?_eq_getElem (index_lt hz hk)⟩
  obtain ⟨y, hy⟩ : ∃ y, l[index l.length start m]? = some y :=
    ⟨_, List.getElem?_eq_getElem (index_lt hz hm)⟩
  have hlen : (l.set (index l.length start k) y).length = l.length := List.length_set
  have hsecond := rotate_set (hlen.symm ▸ hz) (hlen.symm ▸ hm) x
  rw [hlen] at hsecond
  rw [exchange_eq hx hy, exchange_eq (getElem?_index hz hk ▸ hx) (getElem?_index hz hm ▸ hy), hsecond,
    rotate_set hz hk]

theorem take_exchange {l : List α} {n i j : Nat} (hi : i < n) (hj : j < n) :
    (exchange l i j).take n = exchange (l.take n) i j := by
  unfold exchange
  rw [List.getElem?_take_of_lt hi, List.getElem?_take_of_lt hj]
  cases l[i]? with
  | none => rfl
  | some x =>
      cases l[j]? with
      | none => rfl
      | some y => simp only [List.take_set]

theorem length_exchange (l : List α) (i j : Nat) : (exchange l i j).length = l.length := by
  unfold exchange
  split
  · simp only [List.length_set]
  · rfl

/-- The start may be moved back by less than the size. -/
theorem rotate_toNat (l : List α) (start : Nat) {count : Int} (h : count.natAbs ≤ l.length) :
    l.rotate ((start + count + l.length).toNat % l.length) =
      (l.rotate start).rotate (count % l.length).toNat := by
  rw [List.rotate_mod, List.rotate_rotate]
  by_cases hl : l.length = 0
  · rw [List.length_eq_zero_iff.mp hl]
    simp only [List.rotate_nil]
  · rw [← List.rotate_mod l (start + _), ← List.rotate_mod l (Int.toNat _)]
    refine congrArg l.rotate (Int.ofNat_inj.mp ?_)
    rw [Int.natCast_emod, Int.natCast_emod, Int.natCast_add, Int.toNat_of_nonneg (by omega),
      Int.toNat_of_nonneg (Int.emod_nonneg _ (by omega)), Int.add_emod_right, Int.add_emod_emod]

/-- Back by `count`: what comes first then was at the end. -/
theorem getElem?_rotate_neg {l : List α} {count : Nat} (hlo : count ≤ k) (hk : k < l.length) :
    (l.rotate (-(count : Int) % l.length).toNat)[k]? = l[k - count]? := by
  rw [List.getElem?_rotate hk]
  have hnonneg := Int.emod_nonneg (-(count : Int)) (b := l.length) (by omega)
  have hcast : ((k + (-(count : Int) % (l.length : Int)).toNat) % l.length : Nat) =
      ((k - count : Nat) : Int) := by
    rw [Int.natCast_emod, Int.natCast_add, Int.toNat_of_nonneg hnonneg, Int.add_emod_emod,
      ← Int.sub_eq_add_neg, ← Int.natCast_sub hlo]
    exact Int.emod_eq_of_lt (Int.natCast_nonneg _) (by omega)
  rw [Int.ofNat_inj.mp hcast]

theorem getElem?_rotate_pos {l : List α} {count : Nat} (hk : k + count < l.length) :
    (l.rotate ((count : Int) % l.length).toNat)[k]? = l[k + count]? := by
  rw [List.getElem?_rotate (by omega), ← Int.natCast_emod, Int.toNat_natCast, Nat.add_mod_mod,
    Nat.mod_eq_of_lt hk]

end Circular

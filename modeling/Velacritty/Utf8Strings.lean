import Mathlib.Data.List.TakeWhile
import Velacritty.TextColumns

/-! Strings of characters that are cut by the number of their bytes. Nothing here names a program. -/
namespace Utf8
open Text
variable {cs ds : List Char} {c : Char} {n : Nat}

/-- The bytes of a string. -/
def byteLen (cs : List Char) : Nat := total Char.utf8Size cs

theorem byteLen_cons : byteLen (c :: cs) = c.utf8Size + byteLen cs := total_cons

theorem byteLen_append : byteLen (cs ++ ds) = byteLen cs + byteLen ds := total_append

theorem length_le_byteLen : cs.length ≤ byteLen cs := by
  induction cs with
  | nil => exact Nat.le_refl 0
  | cons c cs ih =>
      have hsize := c.utf8Size_pos
      rw [byteLen_cons, List.length_cons]
      omega

/-- A string before and after a number of bytes; `none` if that is in a character or too far. -/
def splitAt : Nat → List Char → Option (List Char × List Char)
  | 0, cs => some ([], cs)
  | _ + 1, [] => none
  | n + 1, c :: cs => if c.utf8Size ≤ n + 1 then
      (splitAt (n + 1 - c.utf8Size) cs).map fun (before, after) => (c :: before, after)
    else none

/-- `String::truncate`: a string that is short enough stays. -/
def truncate (n : Nat) (cs : List Char) : Option (List Char) :=
  if byteLen cs ≤ n then some cs else (splitAt n cs).map Prod.fst

/-- The number of bytes before the last character of a kind. -/
def rfind (p : Char → Bool) (cs : List Char) : Option Nat :=
  match cs.reverse.dropWhile (!p ·) with
  | [] => none
  | _ :: before => some (byteLen before.reverse)

theorem rfind_none {p : Char → Bool} (h : ∀ c ∈ cs, p c = false) : rfind p cs = none := by
  have hdrop : cs.reverse.dropWhile (!p ·) = [] := by
    apply List.dropWhile_eq_nil_iff.mpr
    intro c hc
    rw [h c (List.mem_reverse.mp hc), Bool.not_false]
  unfold rfind
  rw [hdrop]

/-- The last character of a kind is the one with none of the kind after it. -/
theorem rfind_append {p : Char → Bool} (hc : p c = true) (h : ∀ d ∈ ds, p d = false) :
    rfind p (cs ++ c :: ds) = some (byteLen cs) := by
  have hdrop : (cs ++ c :: ds).reverse.dropWhile (!p ·) = c :: cs.reverse := by
    rw [List.reverse_append, List.reverse_cons, List.append_assoc, List.singleton_append,
      List.dropWhile_append_of_pos, List.dropWhile_cons_of_neg]
    · rw [hc]
      exact Bool.false_ne_true
    · intro d hd
      rw [h d (List.mem_reverse.mp hd), Bool.not_false]
  unfold rfind
  rw [hdrop]
  simp only [List.reverse_reverse]

/-- A string is cut after a part of it where the rest is cut. -/
theorem splitAt_append_add (cs ds : List Char) (n : Nat) : splitAt (byteLen cs + n) (cs ++ ds) =
    (splitAt n ds).map fun (before, after) => (cs ++ before, after) := by
  induction cs with
  | nil =>
      rw [List.nil_append, byteLen, total_nil, Nat.zero_add]
      exact Option.map_id'.symm
  | cons c cs ih =>
      have hsize := c.utf8Size_pos
      obtain ⟨m, hm⟩ : ∃ m, byteLen (c :: cs) + n = m + 1 := by
        rw [byteLen_cons]
        exact Nat.exists_eq_add_one.mpr (by omega)
      rw [hm, List.cons_append, splitAt, if_pos, ← hm, byteLen_cons, Nat.add_assoc,
        Nat.add_sub_cancel_left, ih, Option.map_map]
      · rfl
      · rw [← hm, byteLen_cons, Nat.add_assoc]
        exact Nat.le_add_right _ _

/-- A string can be cut between characters. -/
theorem splitAt_append (cs ds : List Char) : splitAt (byteLen cs) (cs ++ ds) = some (cs, ds) := by
  have hzero : splitAt 0 ds = some ([], ds) := by
    cases ds with
    | nil => rfl
    | cons d ds => rfl
  simpa only [Nat.add_zero, hzero, Option.map_some, List.append_nil] using splitAt_append_add cs ds 0

/-- Each character of the string is of one byte. -/
def Ascii (cs : List Char) : Prop := ∀ c ∈ cs, c.toNat < 128

instance (cs : List Char) : Decidable (Ascii cs) :=
  List.decidableBAll (fun c : Char => c.toNat < 128) cs

/-- A character of one byte is below 128. -/
theorem utf8Size_eq_one_iff : c.utf8Size = 1 ↔ c.toNat < 128 := by
  rw [Char.utf8Size_eq_one_iff, UInt32.le_iff_toNat_le]
  exact Nat.lt_succ_iff.symm

theorem byteLen_of_ascii (h : Ascii cs) : byteLen cs = cs.length := by
  induction cs with
  | nil => rfl
  | cons c cs ih =>
      obtain ⟨hc, hcs⟩ := List.forall_mem_cons.mp h
      rw [byteLen_cons, utf8Size_eq_one_iff.mpr hc, ih hcs, List.length_cons, Nat.add_comm]

/-- A string of one-byte characters can be cut anywhere. -/
theorem splitAt_of_ascii (h : Ascii cs) (hn : n ≤ cs.length) :
    splitAt n cs = some (cs.take n, cs.drop n) := by
  have htake : Ascii (cs.take n) := fun c hc => h c (List.mem_of_mem_take hc)
  have hsplit := splitAt_append (cs.take n) (cs.drop n)
  rwa [byteLen_of_ascii htake, List.length_take, Nat.min_eq_left hn, List.take_append_drop] at hsplit

end Utf8

import Mathlib.Data.List.Basic

/-! Pruning the nulls of a YAML config: what is removed besides them, and which stay. -/

/-- Some elements of a list are left out, the others are kept in their order. -/
inductive Thinned {α : Type} (drop : α → Prop) (keep : α → α → Prop) : List α → List α → Prop
  | nil : Thinned drop keep [] []
  | keep {x y : α} {xs ys : List α} (h : keep x y) (hrest : Thinned drop keep xs ys) :
      Thinned drop keep (x :: xs) (y :: ys)
  | drop {x : α} {xs ys : List α} (h : drop x) (hrest : Thinned drop keep xs ys) :
      Thinned drop keep (x :: xs) ys

namespace Thinned
variable {α : Type} {drop : α → Prop} {keep : α → α → Prop} {f : α → Option α} {xs ys : List α}

theorem refl (h : ∀ x ∈ xs, keep x x) : Thinned drop keep xs xs := by
  induction xs with
  | nil => exact .nil
  | cons x xs ih => exact .keep (h x List.mem_cons_self) (ih fun y hy => h y (List.mem_cons_of_mem x hy))

theorem exists_of_mem (h : Thinned drop keep xs ys) {y : α} (hy : y ∈ ys) : ∃ x ∈ xs, keep x y := by
  induction h with
  | nil => exact absurd hy List.not_mem_nil
  | @keep x y' xs ys hkeep _ ih =>
      rcases List.mem_cons.mp hy with rfl | hy
      · exact ⟨x, List.mem_cons_self, hkeep⟩
      · obtain ⟨z, hz, hzy⟩ := ih hy
        exact ⟨z, List.mem_cons_of_mem x hz, hzy⟩
  | @drop x xs ys _ _ ih =>
      obtain ⟨z, hz, hzy⟩ := ih hy
      exact ⟨z, List.mem_cons_of_mem x hz, hzy⟩

theorem nil_iff : Thinned drop keep xs [] ↔ ∀ x ∈ xs, drop x := by
  refine ⟨fun h => ?_, fun h => ?_⟩
  · induction xs with
    | nil => exact fun x hx => absurd hx List.not_mem_nil
    | cons x xs ih =>
        cases h with
        | drop hdrop hrest => exact List.forall_mem_cons.mpr ⟨hdrop, ih hrest⟩
  · induction xs with
    | nil => exact .nil
    | cons x xs ih =>
        obtain ⟨hdrop, hrest⟩ := List.forall_mem_cons.mp h
        exact .drop hdrop (ih hrest)

theorem eq (h : Thinned drop keep xs ys) (hdrop : ∀ x ∈ xs, ¬ drop x)
    (hkeep : ∀ x ∈ xs, ∀ y, keep x y → y = x) : ys = xs := by
  induction h with
  | nil => rfl
  | @keep x y xs ys hxy _ ih =>
      rw [hkeep x List.mem_cons_self y hxy, ih (fun z hz => hdrop z (List.mem_cons_of_mem x hz))
        fun z hz => hkeep z (List.mem_cons_of_mem x hz)]
  | @drop x xs ys hx _ _ => exact absurd hx (hdrop x List.mem_cons_self)

theorem filterMap (hdrop : ∀ x ∈ xs, f x = none → drop x)
    (hkeep : ∀ x ∈ xs, ∀ y, f x = some y → keep x y) : Thinned drop keep xs (xs.filterMap f) := by
  induction xs with
  | nil => exact .nil
  | cons x xs ih =>
      have ih := ih (fun y hy => hdrop y (List.mem_cons_of_mem x hy))
        fun y hy => hkeep y (List.mem_cons_of_mem x hy)
      cases hx : f x with
      | none =>
          rw [List.filterMap_cons_none hx]
          exact .drop (hdrop x List.mem_cons_self hx) ih
      | some y =>
          rw [List.filterMap_cons_some hx]
          exact .keep (hkeep x List.mem_cons_self y hx) ih

/-- If no element that is left out could be kept as one of the others, and no other could be
left out, then the elements are kept and left out as they are mapped. -/
theorem of_filterMap (h : Thinned drop keep xs (xs.filterMap f))
    (hgone : ∀ x ∈ xs, f x = none → ∀ z ∈ xs, ∀ y, f z = some y → ¬ keep x y)
    (hleft : ∀ x ∈ xs, ∀ y, f x = some y → ¬ drop x) :
    ∀ x ∈ xs, (f x = none → drop x) ∧ ∀ y, f x = some y → keep x y := by
  induction xs with
  | nil => exact fun x hx => absurd hx List.not_mem_nil
  | cons x xs ih =>
      have hrest := fun h => ih h (fun z hz hno w hw => hgone z (List.mem_cons_of_mem x hz) hno w
        (List.mem_cons_of_mem x hw)) fun z hz => hleft z (List.mem_cons_of_mem x hz)
      cases hx : f x with
      | none =>
          rw [List.filterMap_cons_none hx] at h
          generalize hys : xs.filterMap f = ys at h
          cases h with
          | @keep _ y _ ys hkeep _ =>
              obtain ⟨z, hz, hy⟩ := List.mem_filterMap.mp (hys ▸ List.mem_cons_self : y ∈ xs.filterMap f)
              exact absurd hkeep (hgone x List.mem_cons_self hx z (List.mem_cons_of_mem x hz) y hy)
          | drop hdrop hthin =>
              subst hys
              intro z hz
              rcases List.mem_cons.mp hz with rfl | hz
              · exact ⟨fun _ => hdrop, fun y hy => absurd (hx.symm.trans hy) (Option.some_ne_none y).symm⟩
              · exact hrest hthin z hz
      | some y =>
          rw [List.filterMap_cons_some hx] at h
          cases h with
          | keep hkeep hthin =>
              intro z hz
              rcases List.mem_cons.mp hz with rfl | hz
              · refine ⟨fun hno => absurd (hno.symm.trans hx) (Option.some_ne_none y).symm, fun w hw => ?_⟩
                rwa [← Option.some.inj (hx.symm.trans hw)]
              · exact hrest hthin z hz
          | drop hdrop _ => exact absurd hdrop (hleft x List.mem_cons_self y hx)

end Thinned

inductive AtKey {κ α : Type} (keep : α → α → Prop) : κ × α → κ × α → Prop
  | mk {key : κ} {x y : α} (h : keep x y) : AtKey keep (key, x) (key, y)

namespace Velacritty

inductive YamlScalar where
  | bool (value : Bool)
  | integer (value : Int)
  | float (bits : UInt64)
  | string (value : String)
  deriving DecidableEq

inductive Yaml where
  | null
  | scalar (value : YamlScalar)
  | sequence (items : List Yaml)
  | mapping (entries : List (Yaml × Yaml))
  | tagged (tag : String) (value : Yaml)

namespace Yaml
variable {v w : Yaml} {items : List Yaml} {entries : List (Yaml × Yaml)} {tag : String}

def asStr : Yaml → Option String
  | scalar (.string value) => some value
  | _ => none

/-- What walking over a value leaves of it, whether it is to be removed, and the messages. -/
structure Walked where
  value : Yaml
  removed : Bool
  messages : List String

mutual

/-- Remove the nulls, and the sequences and mappings without entries. -/
def walk (warnPruned : Bool) : Yaml → Walked
  | sequence items =>
      let kept := retainItems warnPruned items
      ⟨sequence kept.1, kept.1.isEmpty, kept.2⟩
  | mapping entries =>
      let kept := retainEntries warnPruned entries
      ⟨mapping kept.1, kept.1.isEmpty, kept.2⟩
  | null => ⟨null, true, []⟩
  | value => ⟨value, false, []⟩

def retainItems (warnPruned : Bool) : List Yaml → List Yaml × List String
  | [] => ([], [])
  | item :: rest =>
      let walked := walk warnPruned item
      let kept := retainItems warnPruned rest
      (if walked.removed then kept.1 else walked.value :: kept.1, walked.messages ++ kept.2)

def retainEntries (warnPruned : Bool) : List (Yaml × Yaml) → List (Yaml × Yaml) × List String
  | [] => ([], [])
  | (key, value) :: rest =>
      let walked := walk warnPruned value
      let kept := retainEntries warnPruned rest
      let message := (key.asStr.filter fun _ => walked.removed && warnPruned).map fun keyName =>
        "Removing null key \"" ++ keyName ++ "\" from the end config"
      (if walked.removed then kept.1 else (key, walked.value) :: kept.1,
        walked.messages ++ message.toList ++ kept.2)

end

/-- Prune the nulls from the YAML to ensure TOML compatibility. -/
def pruneYamlNulls (value : Yaml) (warnPruned : Bool) : Yaml × List String :=
  let walked := walk warnPruned value
  (if walked.removed then mapping [] else walked.value, walked.messages)

/-! ### Nulls -/

mutual

/-- No null is in the value, nor in a key of it. -/
def NullFree : Yaml → Prop
  | null => False
  | sequence items => NullFreeItems items
  | mapping entries => NullFreeEntries entries
  | tagged _ value => value.NullFree
  | _ => True

def NullFreeItems : List Yaml → Prop
  | [] => True
  | item :: rest => item.NullFree ∧ NullFreeItems rest

def NullFreeEntries : List (Yaml × Yaml) → Prop
  | [] => True
  | (key, value) :: rest => (key.NullFree ∧ value.NullFree) ∧ NullFreeEntries rest

end

mutual

def OnlyNulls : Yaml → Prop
  | null => True
  | sequence items => items ≠ [] ∧ OnlyNullsItems items
  | mapping entries => entries ≠ [] ∧ OnlyNullsEntries entries
  | tagged _ value => value.OnlyNulls
  | _ => False

def OnlyNullsItems : List Yaml → Prop
  | [] => True
  | item :: rest => item.OnlyNulls ∧ OnlyNullsItems rest

def OnlyNullsEntries : List (Yaml × Yaml) → Prop
  | [] => True
  | (_, value) :: rest => value.OnlyNulls ∧ OnlyNullsEntries rest

end

/-- What may remain of a value if only nulls are removed from it: a value without nulls stays
as it is, a value of nulls only may go, and the others keep their order. -/
inductive Remains : Yaml → Yaml → Prop
  | same {v : Yaml} (h : v.NullFree) : Remains v v
  | sequence {items left : List Yaml} (h : Thinned OnlyNulls Remains items left) :
      Remains (sequence items) (sequence left)
  | mapping {entries left : List (Yaml × Yaml)}
      (h : Thinned (fun entry => entry.2.OnlyNulls) (AtKey Remains) entries left) :
      Remains (mapping entries) (mapping left)
  | tagged {tag : String} {v w : Yaml} (h : Remains v w) : Remains (tagged tag v) (tagged tag w)

mutual

/-- No sequence or mapping in the value is empty to begin with, no null is in a tagged value,
and none is in a key, except for that of nulls. -/
def Prunable : Yaml → Prop
  | sequence items => items ≠ [] ∧ PrunableItems items
  | mapping entries => entries ≠ [] ∧ PrunableEntries entries
  | tagged _ value => value.NullFree
  | _ => True

def PrunableItems : List Yaml → Prop
  | [] => True
  | item :: rest => item.Prunable ∧ PrunableItems rest

def PrunableEntries : List (Yaml × Yaml) → Prop
  | [] => True
  | (key, value) :: rest => (value.Prunable ∧ (value.OnlyNulls ∨ key.NullFree)) ∧ PrunableEntries rest

end

@[induction_eliminator]
theorem induct {P : Yaml → Prop} (null : P null) (scalar : ∀ value, P (scalar value))
    (sequence : ∀ items, (∀ item ∈ items, P item) → P (sequence items))
    (mapping : ∀ entries, (∀ entry ∈ entries, P entry.2) → P (mapping entries))
    (tagged : ∀ tag value, P value → P (tagged tag value)) (v : Yaml) : P v := by
  refine @Yaml.rec P (fun items => ∀ item ∈ items, P item) (fun entries => ∀ entry ∈ entries, P entry.2)
    (fun entry => P entry.2)
    null scalar sequence mapping tagged ?_ ?_ ?_ ?_ ?_ v
  · exact fun item hitem => absurd hitem List.not_mem_nil
  · exact fun item rest hitem hrest => List.forall_mem_cons.mpr ⟨hitem, hrest⟩
  · exact fun entry hentry => absurd hentry List.not_mem_nil
  · exact fun entry rest hentry hrest => List.forall_mem_cons.mpr ⟨hentry, hrest⟩
  · exact fun _ _ _ hvalue => hvalue

theorem nullFree_sequence : (sequence items).NullFree ↔ ∀ item ∈ items, item.NullFree := by
  rw [NullFree]
  induction items with
  | nil => exact iff_of_true trivial fun item hitem => absurd hitem List.not_mem_nil
  | cons item rest ih => rw [NullFreeItems, ih, List.forall_mem_cons]

theorem nullFree_mapping :
    (mapping entries).NullFree ↔ ∀ entry ∈ entries, entry.1.NullFree ∧ entry.2.NullFree := by
  rw [NullFree]
  induction entries with
  | nil => exact iff_of_true trivial fun entry hentry => absurd hentry List.not_mem_nil
  | cons entry rest ih => rw [NullFreeEntries, ih, List.forall_mem_cons]

theorem onlyNulls_sequence :
    (sequence items).OnlyNulls ↔ items ≠ [] ∧ ∀ item ∈ items, item.OnlyNulls := by
  rw [OnlyNulls]
  refine and_congr_right' ?_
  induction items with
  | nil => exact iff_of_true trivial fun item hitem => absurd hitem List.not_mem_nil
  | cons item rest ih => rw [OnlyNullsItems, ih, List.forall_mem_cons]

theorem onlyNulls_mapping :
    (mapping entries).OnlyNulls ↔ entries ≠ [] ∧ ∀ entry ∈ entries, entry.2.OnlyNulls := by
  rw [OnlyNulls]
  refine and_congr_right' ?_
  induction entries with
  | nil => exact iff_of_true trivial fun entry hentry => absurd hentry List.not_mem_nil
  | cons entry rest ih => rw [OnlyNullsEntries, ih, List.forall_mem_cons]

theorem prunable_sequence :
    (sequence items).Prunable ↔ items ≠ [] ∧ ∀ item ∈ items, item.Prunable := by
  rw [Prunable]
  refine and_congr_right' ?_
  induction items with
  | nil => exact iff_of_true trivial fun item hitem => absurd hitem List.not_mem_nil
  | cons item rest ih => rw [PrunableItems, ih, List.forall_mem_cons]

theorem prunable_mapping : (mapping entries).Prunable ↔ entries ≠ [] ∧
    ∀ entry ∈ entries, entry.2.Prunable ∧ (entry.2.OnlyNulls ∨ entry.1.NullFree) := by
  rw [Prunable]
  refine and_congr_right' ?_
  induction entries with
  | nil => exact iff_of_true trivial fun entry hentry => absurd hentry List.not_mem_nil
  | cons entry rest ih => rw [PrunableEntries, ih, List.forall_mem_cons]

theorem OnlyNulls.not_nullFree (v : Yaml) : v.OnlyNulls → ¬ v.NullFree := by
  induction v with
  | null => exact fun _ h => h
  | scalar value => exact False.elim
  | sequence items ih =>
      rw [onlyNulls_sequence, nullFree_sequence]
      rintro ⟨hne, honly⟩ hfree
      obtain ⟨item, hitem⟩ := List.exists_mem_of_ne_nil items hne
      exact ih item hitem (honly item hitem) (hfree item hitem)
  | mapping entries ih =>
      rw [onlyNulls_mapping, nullFree_mapping]
      rintro ⟨hne, honly⟩ hfree
      obtain ⟨entry, hentry⟩ := List.exists_mem_of_ne_nil entries hne
      exact ih entry hentry (honly entry hentry) (hfree entry hentry).2
  | tagged tag value ih => exact ih

/-! ### What walking leaves -/

variable {warn : Bool}

def keptItem (warn : Bool) (item : Yaml) : Option Yaml :=
  let walked := walk warn item
  if walked.removed then none else some walked.value

def keptEntry (warn : Bool) (entry : Yaml × Yaml) : Option (Yaml × Yaml) :=
  (keptItem warn entry.2).map (Prod.mk entry.1)

theorem retainItems_eq : (retainItems warn items).1 = items.filterMap (keptItem warn) := by
  induction items with
  | nil => rfl
  | cons item rest ih =>
      simp only [retainItems, ih, List.filterMap_cons, keptItem]
      cases (walk warn item).removed with
      | true => rfl
      | false => rfl

theorem retainEntries_eq : (retainEntries warn entries).1 = entries.filterMap (keptEntry warn) := by
  induction entries with
  | nil => rfl
  | cons entry rest ih =>
      simp only [retainEntries, ih, List.filterMap_cons, keptEntry, keptItem]
      cases (walk warn entry.2).removed with
      | true => rfl
      | false => rfl

theorem keptItem_sequence (warn : Bool) (items : List Yaml) : keptItem warn (sequence items) =
    if items.filterMap (keptItem warn) = [] then none
    else some (sequence (items.filterMap (keptItem warn))) := by
  simp only [keptItem, walk, retainItems_eq, List.isEmpty_iff]

theorem keptItem_mapping (warn : Bool) (entries : List (Yaml × Yaml)) :
    keptItem warn (mapping entries) =
    if entries.filterMap (keptEntry warn) = [] then none
    else some (mapping (entries.filterMap (keptEntry warn))) := by
  simp only [keptItem, walk, retainEntries_eq, List.isEmpty_iff]

theorem keptEntry_eq_some {entry left : Yaml × Yaml} :
    keptEntry warn entry = some left ↔ entry.1 = left.1 ∧ keptItem warn entry.2 = some left.2 := by
  rw [keptEntry, Option.map_eq_some_iff]
  constructor
  · rintro ⟨value, hvalue, rfl⟩
    exact ⟨rfl, hvalue⟩
  · rintro ⟨hkey, hvalue⟩
    exact ⟨left.2, hvalue, by rw [hkey]⟩

theorem keptEntry_eq_none {entry : Yaml × Yaml} :
    keptEntry warn entry = none ↔ keptItem warn entry.2 = none := Option.map_eq_none_iff

theorem keptItem_again (v : Yaml) : ∀ w, keptItem warn v = some w → keptItem warn w = some w := by
  have hself {α : Type} {f : α → Option α} {xs : List α} (h : ∀ x ∈ xs, ∀ y, f x = some y → f y = some y) :
      (xs.filterMap f).filterMap f = xs.filterMap f := by
    rw [List.filterMap_congr (g := some), List.filterMap_some]
    intro y hy
    obtain ⟨x, hx, hxy⟩ := List.mem_filterMap.mp hy
    exact h x hx y hxy
  induction v with
  | null => exact fun w hw => absurd hw.symm (Option.some_ne_none w)
  | scalar value => rintro w ⟨⟩; rfl
  | sequence items ih =>
      intro w hw
      rw [keptItem_sequence] at hw
      split at hw
      · exact absurd hw.symm (Option.some_ne_none w)
      · next hne =>
          obtain rfl := Option.some.inj hw
          rw [keptItem_sequence, hself ih, if_neg hne]
  | mapping entries ih =>
      intro w hw
      rw [keptItem_mapping] at hw
      split at hw
      · exact absurd hw.symm (Option.some_ne_none w)
      · next hne =>
          obtain rfl := Option.some.inj hw
          have hentries : ∀ entry ∈ entries, ∀ left, keptEntry warn entry = some left →
              keptEntry warn left = some left := fun entry hentry left hleft =>
            keptEntry_eq_some.mpr ⟨rfl, ih entry hentry left.2 (keptEntry_eq_some.mp hleft).2⟩
          rw [keptItem_mapping, hself hentries, if_neg hne]
  | tagged tag value _ => rintro w ⟨⟩; rfl

theorem remains_sequence {left : List Yaml} :
    Remains (sequence items) (sequence left) ↔ Thinned OnlyNulls Remains items left := by
  refine ⟨fun h => ?_, .sequence⟩
  cases h with
  | same hfree => exact .refl fun item hitem => .same (nullFree_sequence.mp hfree item hitem)
  | sequence h => exact h

theorem remains_mapping {left : List (Yaml × Yaml)} : Remains (mapping entries) (mapping left) ↔
    Thinned (fun entry => entry.2.OnlyNulls) (AtKey Remains) entries left := by
  refine ⟨fun h => ?_, .mapping⟩
  cases h with
  | same hfree => exact .refl fun entry hentry => .mk (.same (nullFree_mapping.mp hfree entry hentry).2)
  | mapping h => exact h

theorem Remains.removed (v : Yaml) : ∀ w, Remains v w → keptItem warn v = none → keptItem warn w = none := by
  induction v with
  | null =>
      rintro w h -
      cases h with
      | same hfree => exact hfree.elim
  | scalar value => exact fun w _ hv => absurd hv (Option.some_ne_none _)
  | sequence items ih =>
      intro w h hv
      cases h with
      | same _ => exact hv
      | @sequence _ left h =>
          rw [keptItem_sequence, ite_eq_left_iff] at hv ⊢
          have hnone := List.filterMap_eq_nil_iff.mp (by_contra fun hne => Option.some_ne_none _ (hv hne))
          refine fun hne => absurd (List.filterMap_eq_nil_iff.mpr fun y hy => ?_) hne
          obtain ⟨x, hx, hxy⟩ := h.exists_of_mem hy
          exact ih x hx y hxy (hnone x hx)
  | mapping entries ih =>
      intro w h hv
      cases h with
      | same _ => exact hv
      | @mapping _ left h =>
          rw [keptItem_mapping, ite_eq_left_iff] at hv ⊢
          have hnone := List.filterMap_eq_nil_iff.mp (by_contra fun hne => Option.some_ne_none _ (hv hne))
          refine fun hne => absurd (List.filterMap_eq_nil_iff.mpr fun y hy => ?_) hne
          obtain ⟨x, hx, hxy⟩ := h.exists_of_mem hy
          have hx' := keptEntry_eq_none.mp (hnone x hx)
          cases hxy with
          | mk hxy => exact keptEntry_eq_none.mpr (ih _ hx _ hxy hx')
  | tagged tag value _ => exact fun w _ hv => absurd hv (Option.some_ne_none _)

theorem OnlyNulls.kept (v : Yaml) : ∀ w, v.OnlyNulls → keptItem warn v = some w → ¬ w.NullFree := by
  induction v with
  | null => exact fun w _ hw => absurd hw.symm (Option.some_ne_none w)
  | scalar value => exact fun w honly => honly.elim
  | sequence items ih =>
      intro w honly hw hfree
      rw [keptItem_sequence] at hw
      split at hw
      · exact Option.some_ne_none w hw.symm
      · next hne =>
          obtain rfl := Option.some.inj hw
          obtain ⟨y, hy⟩ := List.exists_mem_of_ne_nil _ hne
          obtain ⟨x, hx, hxy⟩ := List.mem_filterMap.mp hy
          exact ih x hx y ((onlyNulls_sequence.mp honly).2 x hx) hxy (nullFree_sequence.mp hfree y hy)
  | mapping entries ih =>
      intro w honly hw hfree
      rw [keptItem_mapping] at hw
      split at hw
      · exact Option.some_ne_none w hw.symm
      · next hne =>
          obtain rfl := Option.some.inj hw
          obtain ⟨y, hy⟩ := List.exists_mem_of_ne_nil _ hne
          obtain ⟨x, hx, hxy⟩ := List.mem_filterMap.mp hy
          exact ih x hx y.2 ((onlyNulls_mapping.mp honly).2 x hx) (keptEntry_eq_some.mp hxy).2
            (nullFree_mapping.mp hfree y hy).2
  | tagged tag value ih =>
      rintro w honly ⟨⟩
      exact OnlyNulls.not_nullFree value honly

/-- What is kept has no nulls, and only they were removed from it. -/
def Keeps (v w : Yaml) : Prop := Remains v w ∧ w.NullFree

/-- A value that is removed is to be one of nulls only; another one keeps all but its nulls. -/
def Right (warn : Bool) (v : Yaml) : Prop :=
  match keptItem warn v with
  | none => v.OnlyNulls
  | some w => v.Keeps w

theorem right_of_none (h : keptItem warn v = none) : v.Right warn ↔ v.OnlyNulls := by
  rw [Right, h]

theorem right_of_some (h : keptItem warn v = some w) : v.Right warn ↔ v.Keeps w := by
  rw [Right, h]

theorem keeps_items (hitems : ∀ item ∈ items, item.Right warn ↔ item.Prunable) :
    (sequence items).Keeps (sequence (items.filterMap (keptItem warn))) ↔ ∀ item ∈ items, item.Prunable := by
  rw [Keeps, remains_sequence, nullFree_sequence]
  constructor
  · rintro ⟨hthin, hfree⟩ x hx
    obtain ⟨hnone, hsome⟩ := hthin.of_filterMap (fun x _ hno z _ y hy hkeep => by
      have hgone := hkeep.removed x y hno
      rw [keptItem_again z y hy] at hgone
      exact Option.some_ne_none y hgone) (fun x hx y hy honly =>
      OnlyNulls.kept x y honly hy (hfree y (List.mem_filterMap.mpr ⟨x, hx, hy⟩))) x hx
    refine (hitems x hx).mp ?_
    cases hkept : keptItem warn x with
    | none => exact (right_of_none hkept).mpr (hnone hkept)
    | some y => exact (right_of_some hkept).mpr ⟨hsome y hkept, hfree y (List.mem_filterMap.mpr ⟨x, hx, hkept⟩)⟩
  · intro hprune
    have hright := fun x hx => (hitems x hx).mpr (hprune x hx)
    refine ⟨.filterMap (fun x hx hno => (right_of_none hno).mp (hright x hx))
      fun x hx y hy => ((right_of_some hy).mp (hright x hx)).1, fun y hy => ?_⟩
    obtain ⟨x, hx, hxy⟩ := List.mem_filterMap.mp hy
    exact ((right_of_some hxy).mp (hright x hx)).2

theorem keeps_entries (hentries : ∀ entry ∈ entries, entry.2.Right warn ↔ entry.2.Prunable) :
    (mapping entries).Keeps (mapping (entries.filterMap (keptEntry warn))) ↔
      ∀ entry ∈ entries, entry.2.Prunable ∧ (entry.2.OnlyNulls ∨ entry.1.NullFree) := by
  rw [Keeps, remains_mapping, nullFree_mapping]
  constructor
  · rintro ⟨hthin, hfree⟩ x hx
    obtain ⟨hnone, hsome⟩ := hthin.of_filterMap (fun x _ hno z _ y hy hkeep => by
      have hno := keptEntry_eq_none.mp hno
      obtain ⟨-, hy⟩ := keptEntry_eq_some.mp hy
      cases hkeep with
      | mk hkeep =>
          have hgone := hkeep.removed _ _ hno
          rw [keptItem_again z.2 _ hy] at hgone
          exact Option.some_ne_none _ hgone) (fun x hx y hy honly =>
      OnlyNulls.kept x.2 y.2 honly (keptEntry_eq_some.mp hy).2
        (hfree y (List.mem_filterMap.mpr ⟨x, hx, hy⟩)).2) x hx
    cases hkept : keptItem warn x.2 with
    | none =>
        have honly := hnone (keptEntry_eq_none.mpr hkept)
        exact ⟨(hentries x hx).mp ((right_of_none hkept).mpr honly), .inl honly⟩
    | some y =>
        have hkept' : keptEntry warn x = some (x.1, y) := keptEntry_eq_some.mpr ⟨rfl, hkept⟩
        obtain ⟨hkey, hvalue⟩ := hfree _ (List.mem_filterMap.mpr ⟨x, hx, hkept'⟩)
        cases hsome _ hkept' with
        | mk hkeep => exact ⟨(hentries _ hx).mp ((right_of_some hkept).mpr ⟨hkeep, hvalue⟩), .inr hkey⟩
  · intro hprune
    have hright := fun x hx => (hentries x hx).mpr (hprune x hx).1
    refine ⟨.filterMap (fun x hx hno => (right_of_none (keptEntry_eq_none.mp hno)).mp (hright x hx))
      fun x hx y hy => ?_, fun y hy => ?_⟩
    · obtain ⟨hkey, hy⟩ := keptEntry_eq_some.mp hy
      obtain ⟨key, value⟩ := y
      obtain rfl : x.1 = key := hkey
      exact .mk ((right_of_some hy).mp (hright x hx)).1
    · obtain ⟨x, hx, hxy⟩ := List.mem_filterMap.mp hy
      obtain ⟨hkey, hxy⟩ := keptEntry_eq_some.mp hxy
      have hfree := ((right_of_some hxy).mp (hright x hx)).2
      refine ⟨?_, hfree⟩
      rcases (hprune x hx).2 with honly | hkey'
      · exact absurd hfree (OnlyNulls.kept x.2 y.2 honly hxy)
      · exact hkey ▸ hkey'

theorem right_iff (warn : Bool) (v : Yaml) : v.Right warn ↔ v.Prunable := by
  induction v with
  | null => exact Iff.rfl
  | scalar value => exact iff_of_true ⟨.same trivial, trivial⟩ trivial
  | sequence items ih =>
      have hkept := keptItem_sequence warn items
      rw [prunable_sequence]
      split at hkept
      · next hnil =>
          rw [right_of_none hkept, onlyNulls_sequence]
          refine and_congr_right fun _ => forall₂_congr fun item hitem => ?_
          rw [← ih item hitem, right_of_none (List.filterMap_eq_nil_iff.mp hnil item hitem)]
      · next hne =>
          have hitems : items ≠ [] := by
            rintro rfl
            exact hne rfl
          rw [right_of_some hkept, keeps_items ih, and_iff_right hitems]
  | mapping entries ih =>
      have hkept := keptItem_mapping warn entries
      rw [prunable_mapping]
      split at hkept
      · next hnil =>
          rw [right_of_none hkept, onlyNulls_mapping]
          refine and_congr_right fun _ => forall₂_congr fun entry hentry => ?_
          have hnone := keptEntry_eq_none.mp (List.filterMap_eq_nil_iff.mp hnil entry hentry)
          rw [← ih entry hentry, right_of_none hnone]
          exact ⟨fun honly => ⟨honly, .inl honly⟩, And.left⟩
      · next hne =>
          have hentries : entries ≠ [] := by
            rintro rfl
            exact hne rfl
          rw [right_of_some hkept, keeps_entries ih, and_iff_right hentries]
  | tagged tag value _ =>
      exact ⟨And.right, fun hfree => ⟨.same hfree, hfree⟩⟩

/-! ### Pruning -/

/-- Only nulls are removed from a value, and no more are left: a value of nothing but nulls is
replaced by the empty mapping. -/
structure OnlyNullsRemoved (v w : Yaml) : Prop where
  clean : w.NullFree
  unchanged : v.NullFree → w = v
  remains : Remains v w ∨ v.OnlyNulls ∧ w = mapping []
  again : ∀ warn, (pruneYamlNulls w warn).1 = w

theorem pruneYamlNulls_eq (v : Yaml) (warn : Bool) :
    (pruneYamlNulls v warn).1 = (keptItem warn v).getD (mapping []) := by
  simp only [pruneYamlNulls, keptItem]
  split
  · rfl
  · rfl

theorem keptItem_warn (v : Yaml) : keptItem false v = keptItem true v := by
  induction v with
  | null => rfl
  | scalar value => rfl
  | sequence items ih => rw [keptItem_sequence, keptItem_sequence, List.filterMap_congr ih]
  | mapping entries ih =>
      have hentries : ∀ entry ∈ entries, keptEntry false entry = keptEntry true entry := fun entry hentry =>
        congrArg (Option.map (Prod.mk entry.1)) (ih entry hentry)
      rw [keptItem_mapping, keptItem_mapping, List.filterMap_congr hentries]
  | tagged tag value _ => rfl

theorem pruneYamlNulls_again (v : Yaml) (warn again : Bool) :
    (pruneYamlNulls (pruneYamlNulls v warn).1 again).1 = (pruneYamlNulls v warn).1 := by
  have hwarn : keptItem again v = keptItem warn v := by
    cases again <;> cases warn <;> simp only [keptItem_warn]
  rw [pruneYamlNulls_eq, pruneYamlNulls_eq, ← hwarn]
  cases hkept : keptItem again v with
  | none => rfl
  | some w => rw [Option.getD_some, keptItem_again v w hkept, Option.getD_some]

/-- A value without nulls stays as it is. -/
theorem Remains.unchanged (v : Yaml) : ∀ w, Remains v w → v.NullFree → w = v := by
  induction v with
  | null => exact fun w _ hfree => hfree.elim
  | scalar value =>
      intro w h _
      cases h with
      | same _ => rfl
  | sequence items ih =>
      intro w h hfree
      have hitems := nullFree_sequence.mp hfree
      cases h with
      | same _ => rfl
      | sequence h =>
          rw [h.eq (fun x hx honly => OnlyNulls.not_nullFree x honly (hitems x hx))
            fun x hx y hxy => ih x hx y hxy (hitems x hx)]
  | mapping entries ih =>
      intro w h hfree
      have hentries := nullFree_mapping.mp hfree
      cases h with
      | same _ => rfl
      | mapping h =>
          rw [h.eq (fun x hx honly => OnlyNulls.not_nullFree x.2 honly (hentries x hx).2)]
          intro x hx y hxy
          cases hxy with
          | mk hxy => rw [ih _ hx _ hxy (hentries _ hx).2]
  | tagged tag value ih =>
      intro w h hfree
      cases h with
      | same _ => rfl
      | tagged h => rw [ih _ h hfree]

/-- Only nulls are removed if no sequence or mapping is empty to begin with, and no null is out
of reach in a tagged value or a key; and only in that case. -/
theorem pruneYamlNulls_iff (v : Yaml) (warn : Bool) :
    OnlyNullsRemoved v (pruneYamlNulls v warn).1 ↔ v = mapping [] ∨ v.Prunable := by
  rw [← right_iff warn]
  have hagain := pruneYamlNulls_again v warn
  rw [pruneYamlNulls_eq] at hagain ⊢
  cases hkept : keptItem warn v with
  | none =>
      rw [right_of_none hkept]
      rw [hkept, Option.getD_none] at hagain
      constructor
      · rintro ⟨-, -, hremains | ⟨honly, -⟩, -⟩
        · cases hremains with
          | same _ => exact .inl rfl
          | @mapping entries _ h =>
              by_cases hnil : entries = []
              · rw [hnil]
                exact .inl rfl
              · exact .inr (onlyNulls_mapping.mpr ⟨hnil, Thinned.nil_iff.mp h⟩)
        · exact .inr honly
      · rintro (rfl | honly)
        · exact ⟨trivial, fun _ => rfl, .inl (.same trivial), hagain⟩
        · exact ⟨trivial, fun hfree => absurd hfree (OnlyNulls.not_nullFree v honly), .inr ⟨honly, rfl⟩, hagain⟩
  | some w =>
      rw [right_of_some hkept]
      rw [hkept, Option.getD_some] at hagain
      constructor
      · rintro ⟨hfree, -, hremains | ⟨honly, -⟩, -⟩
        · exact .inr ⟨hremains, hfree⟩
        · exact absurd hfree (OnlyNulls.kept v w honly hkept)
      · rintro (rfl | ⟨hremains, hfree⟩)
        · exact absurd hkept.symm (Option.some_ne_none w)
        · exact ⟨hfree, hremains.unchanged v w, .inl hremains, hagain⟩

/-- An empty list of hints is removed, as if it had not been given. -/
theorem not_onlyNullsRemoved : ¬ OnlyNullsRemoved
    (mapping [(scalar (.string "enabled"), sequence [])])
    (pruneYamlNulls (mapping [(scalar (.string "enabled"), sequence [])]) true).1 := by
  rintro ⟨-, hunchanged, -, -⟩
  have hfree : (mapping [(scalar (.string "enabled"), sequence [])]).NullFree :=
    ⟨⟨trivial, trivial⟩, trivial⟩
  exact absurd (mapping.inj (hunchanged hfree)).symm (List.cons_ne_nil _ _)

/-- The message says that the key is null. -/
example : (pruneYamlNulls (mapping [(scalar (.string "enabled"), sequence [])]) true).2 =
    ["Removing null key \"enabled\" from the end config"] := by decide

end Yaml
end Velacritty

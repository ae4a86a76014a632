import Mathlib.Data.String.Basic
import Velacritty.SortedMap
import Velacritty.UiConfig

/-! Merging configs: what the merged config has at a path, and when the order in which three
are merged makes no difference. -/
namespace Velacritty
open OrderedMap

namespace Toml
variable {base replacement value item : Toml} {items : List Toml} {entries left right : List (String × Toml)}
  {key : String} {path : List String}

mutual

/-- Merge two serde structures: all values from `replacement`, and `base` whenever a value isn't
present in `replacement`. -/
def merge (base : Toml) : Toml → Toml
  | array replacement =>
      match base with
      | array base => array (base ++ replacement)
      | _ => array replacement
  | table replacement =>
      match base with
      | table base => table (mergeTables base replacement)
      | _ => table replacement
  | value => value

def mergeTables (base : List (String × Toml)) : List (String × Toml) → List (String × Toml)
  | [] => base
  | (key, value) :: replacement =>
      let value := match base.lookup key with
        | some baseValue => merge baseValue value
        | none => value
      mergeTables (SortedMap.insert key value base) replacement

end

mutual

/-- The keys of all tables in the value are sorted, as those of a `BTreeMap` are. -/
def Sorted : Toml → Prop
  | array items => SortedItems items
  | table entries => SortedMap.Sorted entries ∧ SortedEntries entries
  | _ => True

def SortedItems : List Toml → Prop
  | [] => True
  | item :: rest => item.Sorted ∧ SortedItems rest

def SortedEntries : List (String × Toml) → Prop
  | [] => True
  | (_, value) :: rest => value.Sorted ∧ SortedEntries rest

end

def valueAt (value : Toml) : List String → Option Toml
  | [] => some value
  | key :: path => (value.get key).bind fun item => item.valueAt path

/-- What has no values inside. -/
def IsScalar : Toml → Prop
  | array _ => False
  | table _ => False
  | _ => True

@[induction_eliminator]
theorem induct {P : Toml → Prop} (scalar : ∀ value : Toml, value.IsScalar → P value)
    (array : ∀ items, (∀ item ∈ items, P item) → P (array items))
    (table : ∀ entries, (∀ entry ∈ entries, P entry.2) → P (table entries)) (value : Toml) : P value := by
  refine @Toml.rec P (fun items => ∀ item ∈ items, P item) (fun entries => ∀ entry ∈ entries, P entry.2)
    (fun entry => P entry.2)
    (fun _ => scalar _ trivial) (fun _ => scalar _ trivial) (fun _ => scalar _ trivial)
    (fun _ => scalar _ trivial) (fun _ => scalar _ trivial) array table ?_ ?_ ?_ ?_ ?_ value
  · exact fun item hitem => absurd hitem List.not_mem_nil
  · exact fun item rest hitem hrest => List.forall_mem_cons.mpr ⟨hitem, hrest⟩
  · exact fun entry hentry => absurd hentry List.not_mem_nil
  · exact fun entry rest hentry hrest => List.forall_mem_cons.mpr ⟨hentry, hrest⟩
  · exact fun _ _ hvalue => hvalue

theorem sorted_array : (array items).Sorted ↔ ∀ item ∈ items, item.Sorted := by
  rw [Sorted]
  induction items with
  | nil => exact iff_of_true trivial fun item hitem => absurd hitem List.not_mem_nil
  | cons item rest ih => rw [SortedItems, ih, List.forall_mem_cons]

theorem sorted_table :
    (table entries).Sorted ↔ SortedMap.Sorted entries ∧ ∀ entry ∈ entries, entry.2.Sorted := by
  rw [Sorted]
  refine and_congr_right' ?_
  induction entries with
  | nil => exact iff_of_true trivial fun entry hentry => absurd hentry List.not_mem_nil
  | cons entry rest ih => rw [SortedEntries, ih, List.forall_mem_cons]

theorem Sorted.lookup (h : (table entries).Sorted) (hitem : entries.lookup key = some item) : item.Sorted :=
  (sorted_table.mp h).2 _ (SortedMap.mem_of_lookup hitem)

theorem merge_scalar (h : value.IsScalar) (base : Toml) : merge base value = value := by
  cases value with
  | array items => exact h.elim
  | table entries => exact h.elim
  | string value => rfl
  | integer value => rfl
  | float bits => rfl
  | boolean value => rfl
  | datetime text => rfl

/-- The value of a key in merged tables. -/
def mergeEntry : Option Toml → Option Toml → Option Toml
  | base, none => base
  | none, some value => some value
  | some base, some value => some (merge base value)

theorem lookup_mergeTables (h : SortedMap.Sorted right) (key : String) :
    (mergeTables left right).lookup key = mergeEntry (left.lookup key) (right.lookup key) := by
  induction right generalizing left with
  | nil =>
      rw [mergeTables, List.lookup_nil]
      cases left.lookup key <;> rfl
  | cons e rest ih =>
      obtain ⟨k, value⟩ := e
      rw [mergeTables, ih (List.pairwise_cons.mp h).2]
      by_cases hk : key = k
      · rw [hk, h.lookup_eq_none (le_refl k), SortedMap.lookup_insert_self, lookup_cons_eq]
        cases left.lookup k <;> rfl
      · rw [SortedMap.lookup_insert_ne hk, lookup_cons_ne hk]

theorem sorted_mergeTables (h : SortedMap.Sorted left) (right : List (String × Toml)) :
    SortedMap.Sorted (mergeTables left right) := by
  induction right generalizing left with
  | nil => exact h
  | cons e rest ih => exact ih (h.insert _ _)

theorem Sorted.merge (value : Toml) : ∀ base : Toml, base.Sorted → value.Sorted →
    (Toml.merge base value).Sorted := by
  induction value with
  | scalar value hscalar =>
      intro base _ hvalue
      rw [merge_scalar hscalar]
      exact hvalue
  | array items _ =>
      intro base hbase hvalue
      cases base with
      | array base =>
          rw [Toml.merge, sorted_array, List.forall_mem_append]
          exact ⟨sorted_array.mp hbase, sorted_array.mp hvalue⟩
      | _ => exact hvalue
  | table entries ih =>
      intro base hbase hvalue
      cases base with
      | table base =>
          obtain ⟨hsorted, hitems⟩ := sorted_table.mp hbase
          obtain ⟨hsorted', hitems'⟩ := sorted_table.mp hvalue
          have hmerged := sorted_mergeTables hsorted entries
          refine sorted_table.mpr ⟨hmerged, fun entry hentry => ?_⟩
          have hlookup := hmerged.lookup_of_mem (k := entry.1) (a := entry.2) hentry
          rw [lookup_mergeTables hsorted'] at hlookup
          cases hb : base.lookup entry.1 with
          | none =>
              cases hr : entries.lookup entry.1 with
              | none =>
                  rw [hb, hr] at hlookup
                  exact absurd hlookup.symm (Option.some_ne_none _)
              | some item =>
                  rw [hb, hr, mergeEntry] at hlookup
                  exact Option.some.inj hlookup ▸ hvalue.lookup hr
          | some old =>
              cases hr : entries.lookup entry.1 with
              | none =>
                  rw [hb, hr, mergeEntry] at hlookup
                  exact Option.some.inj hlookup ▸ hbase.lookup hb
              | some item =>
                  rw [hb, hr, mergeEntry] at hlookup
                  rw [← Option.some.inj hlookup]
                  exact ih _ (SortedMap.mem_of_lookup hr) old (hbase.lookup hb) (hvalue.lookup hr)
      | _ => exact hvalue

/-! ### Paths -/

def Overrides (value : Toml) (path : List String) : Prop :=
  ∃ before key after item, path = before ++ key :: after ∧ value.valueAt before = some item ∧
    item.asTable = none

theorem valueAt_append (value : Toml) (before after : List String) :
    value.valueAt (before ++ after) = (value.valueAt before).bind fun item => item.valueAt after := by
  induction before generalizing value with
  | nil => rfl
  | cons key before ih =>
      simp only [List.cons_append, valueAt, ih, Option.bind_assoc]

theorem valueAt_cons_eq_none (h : value.asTable = none) (key : String) (path : List String) :
    value.valueAt (key :: path) = none := by
  simp only [valueAt, get, h, Option.bind_none]

theorem valueAt_table (entries : List (String × Toml)) (key : String) (path : List String) :
    (table entries).valueAt (key :: path) = (entries.lookup key).bind fun item => item.valueAt path := rfl

theorem merge_of_not_table (h : base.asTable = none) (entries : List (String × Toml)) :
    merge base (table entries) = table entries := by
  cases base with
  | table _ => exact absurd h (Option.some_ne_none _)
  | _ => rfl

theorem asTable_merge (h : value.asTable = none) (base : Toml) : (merge base value).asTable = none := by
  cases value with
  | array items => cases base <;> rfl
  | table _ => exact absurd h (Option.some_ne_none _)
  | _ => rfl

theorem eq_table_of_get (h : value.get key = some item) :
    ∃ entries, value = table entries ∧ entries.lookup key = some item := by
  cases value with
  | table entries => exact ⟨entries, rfl, h⟩
  | _ => exact absurd h.symm (Option.some_ne_none item)

theorem valueAt_merge_some (hsorted : replacement.Sorted) (hitem : replacement.valueAt path = some item)
    (base : Toml) : (merge base replacement).valueAt path = mergeEntry (base.valueAt path) (some item) := by
  induction path generalizing base replacement with
  | nil =>
      obtain rfl := Option.some.inj hitem
      rfl
  | cons key path ih =>
      obtain ⟨next, hnext, hrest⟩ := Option.bind_eq_some_iff.mp hitem
      obtain ⟨right, rfl, hright⟩ := eq_table_of_get hnext
      cases htable : base.asTable with
      | none =>
          rw [merge_of_not_table htable, valueAt_cons_eq_none htable, valueAt_table, hright, Option.bind_some,
            hrest]
          rfl
      | some left =>
          obtain rfl : base = table left := by
            cases base with
            | table entries => rw [Option.some.inj htable]
            | _ => exact absurd htable.symm (Option.some_ne_none left)
          rw [merge, valueAt_table, valueAt_table, lookup_mergeTables (sorted_table.mp hsorted).1, hright]
          cases hleft : left.lookup key with
          | none =>
              rw [mergeEntry, Option.bind_some, hrest, Option.bind_none]
              rfl
          | some old =>
              rw [mergeEntry, Option.bind_some, Option.bind_some]
              exact ih (hsorted.lookup hright) hrest old

/-- Where the replacement has nothing, nor anything that would be in the way, the value is
that of the base. -/
theorem valueAt_merge_none (hsorted : replacement.Sorted) (hnone : replacement.valueAt path = none)
    (hkeep : ¬ replacement.Overrides path) (base : Toml) :
    (merge base replacement).valueAt path = base.valueAt path := by
  induction path generalizing base replacement with
  | nil => exact absurd hnone (Option.some_ne_none _)
  | cons key path ih =>
      cases htable : replacement.asTable with
      | none => exact absurd ⟨[], key, path, replacement, rfl, rfl, htable⟩ hkeep
      | some right =>
          obtain rfl : replacement = table right := by
            cases replacement with
            | table entries => rw [Option.some.inj htable]
            | _ => exact absurd htable.symm (Option.some_ne_none right)
          cases hbase : base.asTable with
          | none => rw [merge_of_not_table hbase, valueAt_cons_eq_none hbase, hnone]
          | some left =>
              obtain rfl : base = table left := by
                cases base with
                | table entries => rw [Option.some.inj hbase]
                | _ => exact absurd hbase.symm (Option.some_ne_none left)
              rw [merge, valueAt_table, valueAt_table, lookup_mergeTables (sorted_table.mp hsorted).1]
              rw [valueAt_table] at hnone
              cases hright : right.lookup key with
              | none => cases left.lookup key <;> rfl
              | some next =>
                  rw [hright, Option.bind_some] at hnone
                  cases hleft : left.lookup key with
                  | none => rw [mergeEntry, Option.bind_some, hnone, Option.bind_none]
                  | some old =>
                      rw [mergeEntry, Option.bind_some, Option.bind_some]
                      refine ih (hsorted.lookup hright) hnone ?_ old
                      rintro ⟨before, key', after, item, rfl, hitem, hno⟩
                      refine hkeep ⟨key :: before, key', after, item, rfl, ?_, hno⟩
                      rw [valueAt_table, hright, Option.bind_some, hitem]

/-- A value that is no table hides what the base has below. -/
theorem valueAt_merge_overrides (hsorted : replacement.Sorted) (h : replacement.Overrides path)
    (base : Toml) : (merge base replacement).valueAt path = none := by
  obtain ⟨before, key, after, item, rfl, hitem, hno⟩ := h
  rw [valueAt_append, valueAt_merge_some hsorted hitem]
  cases base.valueAt before with
  | none => exact valueAt_cons_eq_none hno key after
  | some old => exact valueAt_cons_eq_none (asTable_merge hno old) key after

/-- Two arrays or two tables, which are merged. -/
def Meets : Toml → Toml → Prop
  | array _, array _ => True
  | table _, table _ => True
  | _, _ => False

theorem merge_of_not_meets (h : ¬ base.Meets value) : merge base value = value := by
  cases value with
  | array items =>
      cases base with
      | array _ => exact absurd trivial h
      | _ => rfl
  | table entries =>
      cases base with
      | table _ => exact absurd trivial h
      | _ => rfl
  | _ => rfl

structure MergedAt (base replacement merged : Toml) (path : List String) : Prop where
  replaced : ∀ item, replacement.valueAt path = some item →
    (∀ old, base.valueAt path = some old → ¬ old.Meets item) → merged.valueAt path = some item
  appended : ∀ old new, base.valueAt path = some (array old) →
    replacement.valueAt path = some (array new) → merged.valueAt path = some (array (old ++ new))
  joined : ∀ old new, base.valueAt path = some (table old) →
    replacement.valueAt path = some (table new) → ∃ entries, merged.valueAt path = some (table entries) ∧
      ∀ key, entries.lookup key = mergeEntry (old.lookup key) (new.lookup key)
  kept : replacement.valueAt path = none → ¬ replacement.Overrides path →
    merged.valueAt path = base.valueAt path
  overridden : replacement.Overrides path → merged.valueAt path = none

theorem valueAt_sorted (hsorted : value.Sorted) (h : value.valueAt path = some item) : item.Sorted := by
  induction path generalizing value with
  | nil => exact Option.some.inj h ▸ hsorted
  | cons key path ih =>
      obtain ⟨next, hnext, hrest⟩ := Option.bind_eq_some_iff.mp h
      obtain ⟨entries, rfl, hlookup⟩ := eq_table_of_get hnext
      exact ih (hsorted.lookup hlookup) hrest

theorem mergedAt (hsorted : replacement.Sorted) (base : Toml) (path : List String) :
    MergedAt base replacement (merge base replacement) path := by
  refine ⟨fun item hitem hmeet => ?_, fun old new hold hnew => ?_, fun old new hold hnew => ?_,
    fun hnone hkeep => valueAt_merge_none hsorted hnone hkeep base, fun h => valueAt_merge_overrides hsorted h base⟩
  · rw [valueAt_merge_some hsorted hitem]
    cases hold : base.valueAt path with
    | none => rfl
    | some old => rw [mergeEntry, merge_of_not_meets (hmeet old hold)]
  · rw [valueAt_merge_some hsorted hnew, hold]
    rfl
  · refine ⟨mergeTables old new, ?_, lookup_mergeTables (sorted_table.mp (valueAt_sorted hsorted hnew)).1⟩
    rw [valueAt_merge_some hsorted hnew, hold]
    rfl

/-! ### Order -/

/-- Two arrays, two tables, or two values that are neither. -/
def SameShape (a b : Toml) : Prop := a.Meets b ∨ a.IsScalar ∧ b.IsScalar

def Agree (a b : Toml) : Prop :=
  ∀ path v w, a.valueAt path = some v → b.valueAt path = some w → v.SameShape w

theorem Agree.lookup {a b : Toml} (h : (table left).Agree (table right)) (ha : left.lookup key = some a)
    (hb : right.lookup key = some b) : a.Agree b := by
  intro path v w hv hw
  refine h (key :: path) v w ?_ ?_
  · rw [valueAt_table, ha, Option.bind_some, hv]
  · rw [valueAt_table, hb, Option.bind_some, hw]

/-- The order of two merges makes no difference if the shapes agree. -/
theorem merge_assoc (c : Toml) : ∀ a b : Toml, a.Sorted → b.Sorted → c.Sorted →
    a.Agree b → b.Agree c → a.Agree c → merge (merge a b) c = merge a (merge b c) := by
  induction c with
  | scalar c hscalar =>
      intro a b _ _ _ _ _ _
      rw [merge_scalar hscalar, merge_scalar hscalar, merge_scalar hscalar]
  | array items _ =>
      intro a b _ _ _ hab hbc hac
      rcases hbc [] b _ rfl rfl with hmeet | ⟨-, hscalar⟩
      · cases b with
        | array right =>
            rcases hac [] a _ rfl rfl with hmeet' | ⟨-, hscalar⟩
            · cases a with
              | array left => simp only [merge, List.append_assoc]
              | _ => exact hmeet'.elim
            · exact hscalar.elim
        | _ => exact hmeet.elim
      · exact hscalar.elim
  | table entries ih =>
      intro a b ha hb hc hab hbc hac
      rcases hbc [] b _ rfl rfl with hmeet | ⟨-, hscalar⟩
      · cases b with
        | table right =>
            rcases hac [] a _ rfl rfl with hmeet' | ⟨-, hscalar⟩
            · cases a with
              | table left =>
                  obtain ⟨hleft, -⟩ := sorted_table.mp ha
                  obtain ⟨hright, -⟩ := sorted_table.mp hb
                  obtain ⟨hentries, -⟩ := sorted_table.mp hc
                  simp only [merge]
                  refine congrArg table (SortedMap.Sorted.ext (sorted_mergeTables (sorted_mergeTables hleft _) _)
                    (sorted_mergeTables hleft _) fun key => ?_)
                  rw [lookup_mergeTables hentries, lookup_mergeTables hright,
                    lookup_mergeTables (sorted_mergeTables hright _), lookup_mergeTables hentries]
                  cases hz : entries.lookup key with
                  | none => rfl
                  | some z =>
                      cases hy : right.lookup key with
                      | none => rfl
                      | some y =>
                          cases hx : left.lookup key with
                          | none => rfl
                          | some x =>
                              exact congrArg some (ih _ (SortedMap.mem_of_lookup hz) x y (ha.lookup hx)
                                (hb.lookup hy) (hc.lookup hz) (hab.lookup hx hy) (hbc.lookup hy hz)
                                (hac.lookup hx hz))
              | _ => exact hmeet'.elim
            · exact hscalar.elim
        | _ => exact hmeet.elim
      · exact hscalar.elim

end Toml
end Velacritty

import Velacritty.ConfigAgree

/-! What a rejected override leaves of a config. -/
namespace Velacritty

/-- The override is rejected. -/
def Parsed.Fails {α : Type} (parsed : Parsed α) : Prop := ∃ error, parsed.result = .error error

def TakesAll {n : Nat} (fields : Fin n → ConfigField) (flatten : Option (Fin n)) (value : Toml) : Prop :=
  ∃ entries, value = .table entries ∧
    ∀ entry ∈ entries, (replaceTarget fields flatten value entry).isSome

def given {n : Nat} (fields : Fin n → ConfigField) (flatten : Option (Fin n)) (values : List Toml)
    (i : Fin n) : List Toml :=
  values.flatMap fun value => targetsOf fields flatten value (value.asTable.getD []) i

theorem Parsed.not_fails {α : Type} {parsed : Parsed α} :
    ¬ parsed.Fails ↔ ∃ a, parsed.result = .ok a := by
  unfold Fails
  cases parsed.result with
  | ok a => exact iff_of_true (fun ⟨_, h⟩ => by cases h) ⟨a, rfl⟩
  | error error => exact iff_of_false (fun h => h ⟨error, rfl⟩) fun ⟨_, h⟩ => by cases h

namespace ConfigType

/-- The overrides are accepted, and at every place the last of them sets what is set there. -/
def Restores (errors : TomlErrors) {α : Type} : ConfigType α → α → List Toml → Prop
  | leaf _ deserialize, a, values =>
      (∀ value ∈ values, ¬ (deserialize value).Fails) ∧
        ∀ value, values.getLast? = some value → (deserialize value).result = .ok a
  | option _, none, values => values = []
  | option inner, some a, values => inner.Restores errors a values
  | map inner, m, values =>
      ∃ hashmaps, List.Forall₂ (fun value hashmap =>
          ((map inner).deserialize errors value).result = .ok hashmap) values hashmaps ∧
        ∀ key item, hashmaps.reverse.findSome? (fun hashmap => hashmap key) = some item → m key = some item
  | struct fields flatten _ types, config, values =>
      (∀ value ∈ values, TakesAll fields flatten value) ∧
        ∀ i, (types i).Restores errors (config i) (given fields flatten values i)

/-- After the overrides `values`, `bad` is rejected, and what its entries before the rejected
one set, together with `values`, is what is set already. -/
def Undone (errors : TomlErrors) {α : Type} : ConfigType α → α → List Toml → Toml → Prop
  | leaf default deserialize, a, values, bad =>
      (leaf default deserialize).Restores errors a values ∧ (deserialize bad).Fails
  | option inner, none, values, bad => values = [] ∧ (inner.deserialize errors bad).Fails
  | option inner, some a, values, bad => inner.Undone errors a values bad
  | map inner, m, values, bad =>
      (map inner).Restores errors m values ∧ ((map inner).deserialize errors bad).Fails
  | struct fields flatten _ types, config, values, bad =>
      (∀ value ∈ values, TakesAll fields flatten value) ∧
        match bad with
        | .table entries => ∃ done entry rest, entries = done ++ entry :: rest ∧
            (∀ e ∈ done, (replaceTarget fields flatten bad e).isSome) ∧
            match replaceTarget fields flatten bad entry with
            | none => ∀ i, (types i).Restores errors (config i)
                (given fields flatten values i ++ targetsOf fields flatten bad done i)
            | some (i, next) =>
                (∀ j, j ≠ i → (types j).Restores errors (config j)
                  (given fields flatten values j ++ targetsOf fields flatten bad done j)) ∧
                (types i).Undone errors (config i)
                  (given fields flatten values i ++ targetsOf fields flatten bad done i) next
        | _ => ∀ i, (types i).Restores errors (config i) (given fields flatten values i)

end ConfigType

/-! ### Accepted overrides -/

namespace Chain
variable {α β : Type} {step : α → β → α → Prop} {values more : List β} {a b c : α}

theorem append_iff : Chain step (values ++ more) a c ↔
    ∃ b, Chain step values a b ∧ Chain step more b c := by
  constructor
  · intro h
    induction values generalizing a with
    | nil => exact ⟨a, .nil a, h⟩
    | cons value values ih =>
        obtain ⟨d, head, tail⟩ := cons_iff.mp h
        obtain ⟨b, hb, hc⟩ := ih tail
        exact ⟨b, .cons head hb, hc⟩
  · rintro ⟨b, hb, hc⟩
    exact hb.append hc

end Chain

section
variable {n : Nat} {α : Fin n → Type} {fields : Fin n → ConfigField} {flatten : Option (Fin n)}
  {replace : ∀ i, α i → Toml → α i × Except String Unit} {value : Toml}
  {entries : List (String × Toml)} {config config' : ∀ i, α i} {error : String}

theorem replaceEntries_append {done rest : List (String × Toml)}
    (h : replaceEntries fields flatten replace value done config = (config', .ok ())) :
    replaceEntries fields flatten replace value (done ++ rest) config =
      replaceEntries fields flatten replace value rest config' := by
  induction done generalizing config with
  | nil =>
      cases h
      rfl
  | cons entry done ih =>
      rw [replaceEntries] at h
      rw [List.cons_append, replaceEntries]
      cases htarget : replaceTarget fields flatten value entry with
      | none =>
          rw [htarget] at h
          cases h
      | some target =>
          rw [htarget] at h
          simp only at h ⊢
          cases hreplace : replace target.1 (config target.1) target.2 with
          | mk field result =>
              rw [hreplace] at h
              cases result with
              | error error => cases h
              | ok => exact ih h

theorem exists_rejected_entry
    (h : replaceEntries fields flatten replace value entries config = (config', .error error)) :
    ∃ done entry rest mid, entries = done ++ entry :: rest ∧
      replaceEntries fields flatten replace value done config = (mid, .ok ()) ∧
      match replaceTarget fields flatten value entry with
      | none => config' = mid
      | some (i, next) => ∃ field, (∃ error, replace i (mid i) next = (field, .error error)) ∧
          config' = Function.update mid i field := by
  induction entries generalizing config with
  | nil => cases h
  | cons e entries ih =>
      rw [replaceEntries] at h
      cases htarget : replaceTarget fields flatten value e with
      | none =>
          rw [htarget] at h
          cases h
          exact ⟨[], e, entries, config', rfl, rfl, by rw [htarget]⟩
      | some target =>
          obtain ⟨i, next⟩ := target
          rw [htarget] at h
          simp only at h
          cases hreplace : replace i (config i) next with
          | mk field result =>
              rw [hreplace] at h
              cases result with
              | error reason =>
                  refine ⟨[], e, entries, config, rfl, rfl, ?_⟩
                  rw [htarget]
                  exact ⟨field, ⟨reason, hreplace⟩, (congrArg Prod.fst h).symm⟩
              | ok =>
                  obtain ⟨done, entry, rest, mid, rfl, hdone, hentry⟩ := ih h
                  refine ⟨e :: done, entry, rest, mid, rfl, ?_, hentry⟩
                  rw [replaceEntries, htarget]
                  simp only [hreplace, hdone]

theorem replaceEntries_error : (∃ error, replaceEntries fields flatten replace value entries config =
      (config', .error error)) ↔
    ∃ done entry rest mid, entries = done ++ entry :: rest ∧
      replaceEntries fields flatten replace value done config = (mid, .ok ()) ∧
      match replaceTarget fields flatten value entry with
      | none => config' = mid
      | some (i, next) => ∃ field, (∃ error, replace i (mid i) next = (field, .error error)) ∧
          config' = Function.update mid i field := by
  constructor
  · rintro ⟨error, h⟩
    exact exists_rejected_entry h
  · rintro ⟨done, entry, rest, mid, rfl, hdone, hentry⟩
    rw [replaceEntries_append hdone, replaceEntries]
    cases htarget : replaceTarget fields flatten value entry with
    | none =>
        rw [htarget] at hentry
        exact ⟨_, by rw [hentry]⟩
    | some target =>
        rw [htarget] at hentry
        obtain ⟨field, ⟨error, hreplace⟩, rfl⟩ := hentry
        exact ⟨error, by simp only [hreplace]⟩

end

namespace ConfigType
variable {errors : TomlErrors} {α : Type}

theorem leaf_replaces {default : α} {deserialize : Toml → Parsed α} {a b : α} {value : Toml} :
    Replaces ((leaf default deserialize).replace errors) a value b ↔ (deserialize value).result = .ok b := by
  rw [Replaces, replace, replaceSimple]
  cases (deserialize value).result with
  | ok c =>
      constructor
      · intro h
        cases h
        rfl
      · intro h
        cases h
        rfl
  | error error => exact iff_of_false (fun h => by cases h) fun h => by cases h

/-- Each override of a leaf is forgotten with the next one. -/
theorem leaf_chain {default : α} {deserialize : Toml → Parsed α} {values : List Toml} {a b : α} :
    Chain (Replaces ((leaf default deserialize).replace errors)) values a b ↔
      (∀ value ∈ values, ¬ (deserialize value).Fails) ∧
        match values.getLast? with
        | none => a = b
        | some value => (deserialize value).result = .ok b := by
  induction values generalizing a with
  | nil =>
      rw [Chain.nil_iff]
      exact (and_iff_right fun value hvalue => absurd hvalue List.not_mem_nil).symm
  | cons value values ih =>
      rw [Chain.cons_iff, List.forall_mem_cons, Parsed.not_fails, List.getLast?_cons]
      simp only [leaf_replaces, ih]
      cases values.getLast? with
      | none =>
          constructor
          · rintro ⟨c, hc, hrest, rfl⟩
            exact ⟨⟨⟨c, hc⟩, hrest⟩, hc⟩
          · rintro ⟨⟨-, hrest⟩, hb⟩
            exact ⟨b, hb, hrest, rfl⟩
      | some last =>
          constructor
          · rintro ⟨c, hc, hrest, hlast⟩
            exact ⟨⟨⟨c, hc⟩, hrest⟩, hlast⟩
          · rintro ⟨⟨⟨c, hc⟩, hrest⟩, hlast⟩
            exact ⟨c, hc, hrest, hlast⟩

theorem map_replaces {inner : ConfigType α} {m m' : String → Option α} {value : Toml} :
    Replaces ((map inner).replace errors) m value m' ↔
      ∃ hashmap, ((map inner).deserialize errors value).result = .ok hashmap ∧
        m' = fun key => (hashmap key).or (m key) := by
  rw [Replaces, replace]
  cases ((map inner).deserialize errors value).result with
  | ok hashmap =>
      constructor
      · intro h
        cases h
        exact ⟨hashmap, rfl, rfl⟩
      · rintro ⟨_, heq, rfl⟩
        cases heq
        rfl
  | error error =>
      refine iff_of_false (fun h => by cases h) ?_
      rintro ⟨_, h, _⟩
      cases h

/-- Each entry of a map is that of the last override which has one for the key. -/
theorem map_chain {inner : ConfigType α} {values : List Toml} {m m' : String → Option α} :
    Chain (Replaces ((map inner).replace errors)) values m m' ↔
      ∃ hashmaps, List.Forall₂ (fun value hashmap =>
          ((map inner).deserialize errors value).result = .ok hashmap) values hashmaps ∧
        m' = fun key => (hashmaps.reverse.findSome? fun hashmap => hashmap key).or (m key) := by
  induction values generalizing m with
  | nil =>
      rw [Chain.nil_iff]
      constructor
      · rintro rfl
        exact ⟨[], .nil, rfl⟩
      · rintro ⟨hashmaps, hall, rfl⟩
        cases hall
        rfl
  | cons value values ih =>
      have hcons (hashmap : String → Option α) (hashmaps : List (String → Option α)) (key : String) :
          ((hashmap :: hashmaps).reverse.findSome? fun hashmap => hashmap key).or (m key) =
            (hashmaps.reverse.findSome? fun hashmap => hashmap key).or ((hashmap key).or (m key)) := by
        rw [List.reverse_cons, List.findSome?_append, Option.or_assoc, List.findSome?_singleton]
      simp only [Chain.cons_iff, map_replaces, ih]
      constructor
      · rintro ⟨_, ⟨hashmap, hvalue, rfl⟩, hashmaps, hall, rfl⟩
        exact ⟨hashmap :: hashmaps, .cons hvalue hall, funext fun key => (hcons hashmap hashmaps key).symm⟩
      · rintro ⟨_, hall, rfl⟩
        cases hall with
        | @cons _ hashmap _ hashmaps hvalue hall =>
            exact ⟨_, ⟨hashmap, hvalue, rfl⟩, hashmaps, hall, funext (hcons hashmap hashmaps)⟩

theorem option_chain_some {inner : ConfigType α} {values : List Toml} {a b : α} :
    Chain (Replaces ((option inner).replace errors)) values (some a) (some b) ↔
      Chain (Replaces (inner.replace errors)) values a b := by
  refine ⟨chain_some, fun h => ?_⟩
  induction h with
  | nil a => exact .nil _
  | cons head tail ih =>
      refine .cons (b := some _) ?_ ih
      rw [Replaces] at head
      rw [Replaces, replace, head]

theorem option_chain_none {inner : ConfigType α} {values : List Toml} {a : Option α} :
    Chain (Replaces ((option inner).replace errors)) values a none ↔ values = [] ∧ a = none := by
  constructor
  · intro h
    cases values with
    | nil => exact ⟨rfl, Chain.nil_iff.mp h⟩
    | cons value values =>
        obtain ⟨x, last, hstep⟩ := h.exists_last
        exact absurd rfl (not_replaces_none rfl hstep)
  · rintro ⟨rfl, rfl⟩
    exact .nil none

section
variable {n : Nat} {α : Fin n → Type} {fields : Fin n → ConfigField} {flatten : Option (Fin n)}
  {default config config' : ∀ i, α i} {types : ∀ i, ConfigType (α i)} {values : List Toml} {value : Toml}

theorem struct_replaces :
    Replaces ((struct fields flatten default types).replace errors) config value config' ↔
      TakesAll fields flatten value ∧ ∀ i, Chain (Replaces ((types i).replace errors))
        (targetsOf fields flatten value (value.asTable.getD []) i) (config i) (config' i) := by
  cases value with
  | table entries =>
      rw [Replaces, replace, replaceEntries_iff]
      refine and_congr_left fun _ => ⟨fun h => ⟨entries, rfl, h⟩, ?_⟩
      rintro ⟨_, heq, h⟩
      cases heq
      exact h
  | _ =>
      refine iff_of_false (fun h => ?_) ?_
      · cases h
      · rintro ⟨⟨_, h, -⟩, -⟩
        cases h

theorem struct_chain :
    Chain (Replaces ((struct fields flatten default types).replace errors)) values config config' ↔
      (∀ value ∈ values, TakesAll fields flatten value) ∧
        ∀ i, Chain (Replaces ((types i).replace errors)) (given fields flatten values i)
          (config i) (config' i) := by
  induction values generalizing config with
  | nil =>
      rw [Chain.nil_iff, and_iff_right fun value hvalue => absurd hvalue List.not_mem_nil]
      simp only [given, List.flatMap_nil, Chain.nil_iff, funext_iff]
  | cons value values ih =>
      simp only [Chain.cons_iff, struct_replaces, ih, List.forall_mem_cons, given, List.flatMap_cons,
        Chain.append_iff]
      constructor
      · rintro ⟨mid, ⟨hvalue, hhead⟩, hvalues, htail⟩
        exact ⟨⟨hvalue, hvalues⟩, fun i => ⟨mid i, hhead i, htail i⟩⟩
      · rintro ⟨⟨hvalue, hvalues⟩, hfields⟩
        choose mid hhead htail using hfields
        exact ⟨mid, ⟨hvalue, hhead⟩, hvalues, htail⟩

end

/-- Overrides that lead back to a config are those that restore it. -/
theorem chain_restores (errors : TomlErrors) (c : ConfigType α) (a : α) (values : List Toml) :
    Chain (Replaces (c.replace errors)) values a a ↔ c.Restores errors a values := by
  induction c generalizing values with
  | leaf default deserialize =>
      rw [leaf_chain, Restores]
      refine and_congr_right fun _ => ?_
      cases values.getLast? with
      | none => exact iff_of_true rfl fun value h => absurd h.symm (Option.some_ne_none value)
      | some last => simp only [Option.some.injEq, forall_eq']
  | option inner ih =>
      cases a with
      | none =>
          rw [option_chain_none, Restores]
          exact and_iff_left rfl
      | some a =>
          rw [option_chain_some, Restores]
          exact ih a values
  | map inner ih =>
      rw [map_chain, Restores]
      refine exists_congr fun hashmaps => and_congr_right fun _ => ?_
      rw [funext_iff]
      refine forall_congr' fun key => ?_
      cases hashmaps.reverse.findSome? fun hashmap => hashmap key with
      | none => exact iff_of_true rfl fun item h => absurd h.symm (Option.some_ne_none item)
      | some item => simp only [Option.some_or, Option.some.injEq, forall_eq']
  | struct fields flatten default types ih =>
      rw [struct_chain, Restores]
      exact and_congr_right fun _ => forall_congr' fun i => ih i (a i) _

/-! ### Rejected overrides -/

/-- The override is rejected, and leaves `b`. -/
def Rejects (errors : TomlErrors) (c : ConfigType α) (a : α) (value : Toml) (b : α) : Prop :=
  ∃ error, c.replace errors a value = (b, .error error)

theorem replaceSimple_error {a b : α} {parsed : Parsed α} :
    (∃ error, replaceSimple a parsed = (b, .error error)) ↔ a = b ∧ parsed.Fails := by
  unfold replaceSimple Parsed.Fails
  cases parsed.result with
  | ok c =>
      refine iff_of_false ?_ ?_
      · rintro ⟨_, h⟩
        cases h
      · rintro ⟨-, _, h⟩
        cases h
  | error error =>
      constructor
      · rintro ⟨_, h⟩
        cases h
        exact ⟨rfl, error, rfl⟩
      · rintro ⟨rfl, -⟩
        exact ⟨error, rfl⟩

theorem map_rejects {inner : ConfigType α} {m m' : String → Option α} {value : Toml} :
    (map inner).Rejects errors m value m' ↔ m = m' ∧ ((map inner).deserialize errors value).Fails := by
  rw [← replaceSimple_error, Rejects, replace, replaceSimple]
  cases ((map inner).deserialize errors value).result with
  | ok hashmap =>
      refine iff_of_false ?_ ?_
      · rintro ⟨_, h⟩
        cases h
      · rintro ⟨_, h⟩
        cases h
  | error error => exact Iff.rfl

theorem option_fails {inner : ConfigType α} {value : Toml} :
    ((option inner).deserialize errors value).Fails ↔ (inner.deserialize errors value).Fails := by
  unfold Parsed.Fails
  simp only [deserialize]
  cases (inner.deserialize errors value).result with
  | ok a =>
      refine iff_of_false ?_ ?_
      · rintro ⟨_, h⟩
        cases h
      · rintro ⟨_, h⟩
        cases h
  | error error => exact iff_of_true ⟨error, rfl⟩ ⟨error, rfl⟩

theorem option_rejects_some {inner : ConfigType α} {a b : α} {value : Toml} :
    (option inner).Rejects errors (some a) value (some b) ↔ inner.Rejects errors a value b := by
  unfold Rejects
  rw [replace]
  cases inner.replace errors a value with
  | mk c result => simp only [Prod.mk.injEq, Option.some.injEq]

theorem option_rejects_none {inner : ConfigType α} {a : Option α} {value : Toml} :
    (option inner).Rejects errors a value none ↔ a = none ∧ (inner.deserialize errors value).Fails := by
  cases a with
  | none =>
      rw [Rejects, replace, replaceSimple_error, option_fails]
  | some a =>
      refine iff_of_false ?_ ?_
      · rintro ⟨error, h⟩
        rw [replace] at h
        exact Option.some_ne_none _ (congrArg Prod.fst h)
      · rintro ⟨h, -⟩
        cases h

section
variable {n : Nat} {α : Fin n → Type} {fields : Fin n → ConfigField} {flatten : Option (Fin n)}
  {default config config' : ∀ i, α i} {types : ∀ i, ConfigType (α i)} {values : List Toml}
  {entries : List (String × Toml)} {bad : Toml}

theorem struct_rejects :
    (struct fields flatten default types).Rejects errors config (.table entries) config' ↔
      ∃ done entry rest mid, entries = done ++ entry :: rest ∧
        (∀ e ∈ done, (replaceTarget fields flatten (.table entries) e).isSome) ∧
        (∀ i, Chain (Replaces ((types i).replace errors))
          (targetsOf fields flatten (.table entries) done i) (config i) (mid i)) ∧
        match replaceTarget fields flatten (.table entries) entry with
        | none => config' = mid
        | some (i, next) => ∃ field, (types i).Rejects errors (mid i) next field ∧
            config' = Function.update mid i field := by
  rw [Rejects, replace, replaceEntries_error]
  simp only [replaceEntries_iff, and_assoc]
  rfl

theorem struct_rejects_other (h : ∀ entries, bad ≠ .table entries) :
    (struct fields flatten default types).Rejects errors config bad config' ↔ config = config' := by
  cases bad with
  | table entries => exact absurd rfl (h entries)
  | _ => exact replaceSimple_error.trans (and_iff_left ⟨_, rfl⟩)

theorem struct_undone
    (ih : ∀ i a values bad, (∃ b, Chain (Replaces ((types i).replace errors)) values a b ∧
      (types i).Rejects errors b bad a) ↔ (types i).Undone errors a values bad) :
    (∃ b, Chain (Replaces ((struct fields flatten default types).replace errors)) values config b ∧
      (struct fields flatten default types).Rejects errors b (.table entries) config) ↔
      (struct fields flatten default types).Undone errors config values (.table entries) := by
  rw [Undone]
  simp only [struct_chain, struct_rejects, ← chain_restores, Chain.append_iff]
  constructor
  · rintro ⟨b, ⟨hvalues, hgiven⟩, done, entry, rest, mid, hentries, hdone, hchain, hentry⟩
    refine ⟨hvalues, done, entry, rest, hentries, hdone, ?_⟩
    cases htarget : replaceTarget fields flatten (.table entries) entry with
    | none =>
        rw [htarget] at hentry
        obtain rfl := hentry
        exact fun i => ⟨b i, hgiven i, hchain i⟩
    | some target =>
        obtain ⟨i, next⟩ := target
        rw [htarget] at hentry
        obtain ⟨field, hrejects, rfl⟩ := hentry
        simp only [Function.update_self] at hgiven ⊢
        refine ⟨fun j hj => ⟨b j, hgiven j, ?_⟩, (ih i _ _ next).mp ⟨mid i, ?_, hrejects⟩⟩
        · rw [Function.update_of_ne hj]
          exact hchain j
        · have hi := hgiven i
          rw [Function.update_self] at hi
          exact Chain.append_iff.mpr ⟨b i, hi, hchain i⟩
  · rintro ⟨hvalues, done, entry, rest, hentries, hdone, hentry⟩
    cases htarget : replaceTarget fields flatten (.table entries) entry with
    | none =>
        rw [htarget] at hentry
        choose b hgiven hchain using hentry
        exact ⟨b, ⟨hvalues, hgiven⟩, done, entry, rest, config, hentries, hdone, hchain, by rw [htarget]⟩
    | some target =>
        obtain ⟨i, next⟩ := target
        rw [htarget] at hentry
        obtain ⟨hothers, hundone⟩ := hentry
        obtain ⟨m, hm, hrejects⟩ := (ih i _ _ next).mpr hundone
        have hall : ∀ j, ∃ b, Chain (Replaces ((types j).replace errors)) (given fields flatten values j)
            (config j) b ∧ Chain (Replaces ((types j).replace errors))
              (targetsOf fields flatten (.table entries) done j) b (Function.update config i m j) := by
          intro j
          by_cases hj : j = i
          · subst hj
            rw [Function.update_self]
            exact Chain.append_iff.mp hm
          · rw [Function.update_of_ne hj]
            exact hothers j hj
        choose b hgiven hchain using hall
        refine ⟨b, ⟨hvalues, hgiven⟩, done, entry, rest, _, hentries, hdone, hchain, ?_⟩
        rw [htarget]
        refine ⟨config i, by rwa [Function.update_self], ?_⟩
        rw [Function.update_idem, Function.update_eq_self]

theorem struct_undone_other (h : ∀ entries, bad ≠ .table entries) :
    (∃ b, Chain (Replaces ((struct fields flatten default types).replace errors)) values config b ∧
      (struct fields flatten default types).Rejects errors b bad config) ↔
      (struct fields flatten default types).Undone errors config values bad := by
  have hundone : (struct fields flatten default types).Undone errors config values bad ↔
      (∀ value ∈ values, TakesAll fields flatten value) ∧
        ∀ i, (types i).Restores errors (config i) (given fields flatten values i) := by
    cases bad with
    | table entries => exact absurd rfl (h entries)
    | _ => exact Iff.rfl
  simp only [hundone, struct_rejects_other h, exists_eq_right, struct_chain, chain_restores]

end

/-- What an override that is rejected has set is what overrides have set that come back to the
config, and then the start of a rejected one. -/
theorem undone_iff (errors : TomlErrors) (c : ConfigType α) (a : α) (values : List Toml) (bad : Toml) :
    (∃ b, Chain (Replaces (c.replace errors)) values a b ∧ c.Rejects errors b bad a) ↔
      c.Undone errors a values bad := by
  induction c generalizing values bad with
  | leaf default deserialize =>
      rw [Undone, ← chain_restores]
      constructor
      · rintro ⟨b, hchain, hrejects⟩
        obtain ⟨rfl, hfails⟩ := replaceSimple_error.mp hrejects
        exact ⟨hchain, hfails⟩
      · rintro ⟨hchain, hfails⟩
        exact ⟨a, hchain, replaceSimple_error.mpr ⟨rfl, hfails⟩⟩
  | option inner ih =>
      cases a with
      | none =>
          rw [Undone]
          constructor
          · rintro ⟨b, hchain, hrejects⟩
            obtain ⟨rfl, hfails⟩ := option_rejects_none.mp hrejects
            exact ⟨(option_chain_none.mp hchain).1, hfails⟩
          · rintro ⟨rfl, hfails⟩
            exact ⟨none, .nil none, option_rejects_none.mpr ⟨rfl, hfails⟩⟩
      | some a =>
          rw [Undone, ← ih]
          constructor
          · rintro ⟨b, hchain, hrejects⟩
            cases b with
            | none => exact absurd (option_chain_none.mp hchain).2 (Option.some_ne_none a)
            | some b => exact ⟨b, option_chain_some.mp hchain, option_rejects_some.mp hrejects⟩
          · rintro ⟨b, hchain, hrejects⟩
            exact ⟨some b, option_chain_some.mpr hchain, option_rejects_some.mpr hrejects⟩
  | map inner ih =>
      rw [Undone, ← chain_restores]
      constructor
      · rintro ⟨b, hchain, hrejects⟩
        obtain ⟨rfl, hfails⟩ := map_rejects.mp hrejects
        exact ⟨hchain, hfails⟩
      · rintro ⟨hchain, hfails⟩
        exact ⟨a, hchain, map_rejects.mpr ⟨rfl, hfails⟩⟩
  | struct fields flatten default types ih =>
      cases bad with
      | table entries => exact struct_undone ih
      | _ => exact struct_undone_other fun entries h => by cases h

/-- A rejected override leaves the config as it is if what the entries before the rejected one
set, at any depth, ends with what is set there; and only in that case. -/
theorem replace_unchanged_iff (errors : TomlErrors) (c : ConfigType α) (a : α) (value : Toml)
    (h : ∃ error, (c.replace errors a value).2 = .error error) :
    (c.replace errors a value).1 = a ↔ c.Undone errors a [] value := by
  obtain ⟨error, herror⟩ := h
  rw [← undone_iff]
  constructor
  · intro heq
    exact ⟨a, .nil a, error, Prod.ext heq herror⟩
  · rintro ⟨b, hchain, error', hrejects⟩
    obtain rfl := Chain.nil_iff.mp hchain
    rw [hrejects]

end ConfigType

namespace WindowConfig

/-- The key of the title is misspelt, and comes after an entry that sets what is set already. -/
theorem replace_unchanged_same :
    (∃ error, (window.replace errors window.defaultValue
      (.table [("dynamic_title", .boolean true), ("titel", .string "top")])).2 = .error error) ∧
    (window.replace errors window.defaultValue
      (.table [("dynamic_title", .boolean true), ("titel", .string "top")])).1 = window.defaultValue := by
  have herror : ∃ error, (window.replace errors window.defaultValue
      (.table [("dynamic_title", .boolean true), ("titel", .string "top")])).2 = .error error := ⟨_, rfl⟩
  refine ⟨herror, (ConfigType.replace_unchanged_iff errors window window.defaultValue _ herror).mpr ?_⟩
  have hkept : (bool.Restores errors true [.boolean true]) := by
    refine ⟨fun value hvalue => ?_, fun value hvalue => ?_⟩
    · rw [List.mem_singleton.mp hvalue, Parsed.not_fails]
      exact ⟨true, rfl⟩
    · obtain rfl := Option.some.inj hvalue
      rfl
  have hidentity : identity.Undone errors (fun _ => "Velacritty") []
      (.table [("dynamic_title", .boolean true), ("titel", .string "top")]) := by
    unfold identity ConfigType.Undone
    refine ⟨fun _ h => absurd h List.not_mem_nil, [], ("dynamic_title", .boolean true), _, rfl,
      fun _ h => absurd h List.not_mem_nil, fun i => ⟨fun _ h => absurd h List.not_mem_nil, fun _ h => by cases h⟩⟩
  unfold window ConfigType.Undone
  refine ⟨fun _ h => absurd h List.not_mem_nil, [("dynamic_title", .boolean true)],
    ("titel", .string "top"), [], rfl, by decide, fun j hj => ?_, hidentity⟩
  match j with
  | 0 => exact hkept
  | 1 => exact absurd rfl hj

/-- The key of the title is misspelt, and comes after another one, which is set. -/
theorem replace_changes :
    ∃ error, (window.replace errors window.defaultValue
        (.table [("dynamic_title", .boolean false), ("titel", .string "top")])).2 = .error error ∧
      (window.replace errors window.defaultValue
        (.table [("dynamic_title", .boolean false), ("titel", .string "top")])).1 ≠ window.defaultValue :=
  ⟨_, rfl, fun h => Bool.noConfusion (congrFun h 0 : false = true)⟩

end WindowConfig
end Velacritty

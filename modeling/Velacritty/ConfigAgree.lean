import Velacritty.ConfigMerge

/-! When replacing fields agrees with deserializing, and only then. -/
namespace Velacritty

namespace ConfigType

def Knows {α : Type} : ConfigType α → String → Prop
  | struct fields flatten _ types, key =>
      ∃ i, (fields i).Named key ∨ flatten = some i ∧ (types i).Knows key
  | leaf _ _, _ => False
  | option _, _ => False
  | map _, _ => False

/-- No two fields share a key, also not with the fields of a flattened struct. -/
def Unambiguous {α : Type} : ConfigType α → Prop
  | leaf _ _ => True
  | option inner => inner.Unambiguous
  | map inner => inner.Unambiguous
  | struct fields flatten _ types =>
      (∀ i j key, (fields i).Named key → (fields j).Named key → i = j) ∧
        (∀ i f key, flatten = some f → (fields i).Named key → ¬ (types f).Knows key) ∧
        ∀ i, (types i).Unambiguous

/-- No table gives a field twice, under its name and an alias. -/
def GivenOnce {α : Type} : ConfigType α → Toml → Prop
  | leaf _ _, _ => True
  | option inner, value => inner.GivenOnce value
  | map _, _ => True
  | struct fields flatten _ types, value =>
      (∀ i, (valuesOf fields (value.asTable.getD []) i).length ≤ 1) ∧
        (∀ i, ∀ given ∈ valuesOf fields (value.asTable.getD []) i, (types i).GivenOnce given) ∧
        ∀ f, flatten = some f → (types f).GivenOnce (.table (unusedOf fields (value.asTable.getD [])))

end ConfigType

namespace Chain
variable {α β γ : Type} {step : α → β → α → Prop} {value : β} {values : List β} {a b c : α}

theorem append {more : List β} (h : Chain step values a b) (h' : Chain step more b c) :
    Chain step (values ++ more) a c := by
  induction h with
  | nil a => exact h'
  | cons head tail ih => exact .cons head (ih h')

theorem exists_step (h : Chain step values a b) (hvalue : value ∈ values) :
    ∃ x y, step x value y := by
  induction h with
  | nil a => cases hvalue
  | cons head tail ih =>
      rcases List.mem_cons.mp hvalue with rfl | hvalue
      · exact ⟨_, _, head⟩
      · exact ih hvalue

theorem exists_last (h : Chain step (value :: values) a b) : ∃ x value, step x value b := by
  obtain ⟨c, head, tail⟩ := cons_iff.mp h
  clear h
  induction tail generalizing a value with
  | nil c => exact ⟨a, value, head⟩
  | cons head' tail ih => exact ih head'

theorem flatten {n : Nat} {α : Fin n → Type} {step : (∀ i, α i) → β → (∀ i, α i) → Prop}
    {steps : ∀ i, α i → γ → α i → Prop} {given : Fin n → List γ}
    (hstep : ∀ x y, step x value y → ∀ i, Chain (steps i) (given i) (x i) (y i)) {count : Nat}
    {a b : ∀ i, α i} (h : Chain step (List.replicate count value) a b) (i : Fin n) :
    Chain (steps i) (List.replicate count (given i)).flatten (a i) (b i) := by
  induction count generalizing a with
  | zero => exact nil_iff.mpr (congrFun (nil_iff.mp h) i)
  | succ count ih =>
      rw [List.replicate_succ] at h ⊢
      obtain ⟨c, head, tail⟩ := cons_iff.mp h
      exact (hstep a c head i).append (ih tail)

/-- Where a value leads back to it, any number of them does. -/
theorem eq_of_fixed (hfun : ∀ c c', step a value c → step a value c' → c = c') (hfixed : step a value a)
    {count : Nat} (h : Chain step (List.replicate count value) a b) : a = b := by
  induction count with
  | zero => exact nil_iff.mp h
  | succ count ih =>
      rw [List.replicate_succ, cons_iff] at h
      obtain ⟨c, hc, htail⟩ := h
      obtain rfl := hfun a c hfixed hc
      exact ih htail

/-- If a value that comes up again and again leads to `a` only at once, then any number of
times does. -/
theorem settle (hsettle : ∀ count b, Chain step (List.replicate (count + 1) value) b a → step b value a)
    (hfun : ∀ b c c', step b value c → step b value c' → c = c') {n k : Nat} (hk : k ≤ n)
    (hpos : 1 ≤ k) (h : Chain step (List.replicate n value) b a) :
    Chain step (List.replicate k value) b a := by
  obtain ⟨n, rfl⟩ : ∃ m, n = m + 1 := ⟨n - 1, by omega⟩
  obtain ⟨k, rfl⟩ : ∃ m, k = m + 1 := ⟨k - 1, by omega⟩
  have hfirst := hsettle n b h
  rw [List.replicate_succ, cons_iff] at h
  obtain ⟨c, hc, htail⟩ := h
  obtain rfl := hfun b c a hc hfirst
  rw [List.replicate_succ]
  refine .cons hc (.replicate fun hpos => ?_)
  obtain ⟨m, rfl⟩ : ∃ m, n = m + 1 := ⟨n - 1, by omega⟩
  exact hsettle m c htail

end Chain

/-! ### Arms -/

section
variable {n : Nat} {α : Fin n → Type} {fields : Fin n → ConfigField} {flatten : Option (Fin n)}
  {key : String} {i : Fin n}

theorem named_of_visitArm (h : visitArm fields key = some i) : (fields i).Named key := by
  have hfound := List.find?_some h
  rw [Bool.and_eq_true, decide_eq_true_eq] at hfound
  exact hfound.2

theorem named_of_replaceArm (h : replaceArm fields flatten key = some i) : (fields i).Named key := by
  have hfound := List.find?_some h
  rw [Bool.and_eq_true, decide_eq_true_eq, decide_eq_true_eq] at hfound
  exact hfound.2

theorem replaceArm_eq (hdistinct : ∀ i j key, (fields i).Named key → (fields j).Named key → i = j)
    (hnamed : (fields i).Named key) (hi : some i ≠ flatten) :
    replaceArm fields flatten key = some i := by
  cases harm : replaceArm fields flatten key with
  | some j => rw [hdistinct i j key hnamed (named_of_replaceArm harm)]
  | none =>
      have hnone := List.find?_eq_none.mp harm i (List.mem_finRange i)
      rw [Bool.and_eq_true, decide_eq_true_eq, decide_eq_true_eq] at hnone
      exact absurd ⟨hi, hnamed⟩ hnone

/-- Where the arms agree, no key is the name of the flattened field. -/
theorem valuesOf_flatten {entries : List (String × Toml)} (hi : some i = flatten)
    (harm : ∀ entry ∈ entries, replaceArm fields flatten entry.1 = visitArm fields entry.1) :
    valuesOf fields entries i = [] := by
  refine List.map_eq_nil_iff.mpr (List.filter_eq_nil_iff.mpr fun entry hentry hvisit => ?_)
  rw [decide_eq_true_eq, ← harm entry hentry] at hvisit
  exact replaceArm_ne_flatten hvisit hi

theorem mem_unusedOf {entries : List (String × Toml)} {entry : String × Toml} :
    entry ∈ unusedOf fields entries ↔ entry ∈ entries ∧ visitArm fields entry.1 = none := by
  rw [unusedOf, List.mem_filter, decide_eq_true_eq]

variable {noneValue : ∀ i, Option (α i)} {deserialize : ∀ i, Toml → Parsed (α i)}
  {replace : ∀ i, α i → Toml → α i × Except String Unit} {default config before after : ∀ i, α i}
  {entries : List (String × Toml)}

/-- A key without a field of its own replaces the flattened field with the whole table. -/
theorem replaces_flatten {value : Toml} {entry : String × Toml} (hentry : entry ∈ entries)
    (harm : replaceArm fields flatten entry.1 = none)
    (hr : replaceEntries fields flatten replace value entries before = (after, .ok ())) :
    ∃ f x y, flatten = some f ∧ Replaces (replace f) x value y := by
  obtain ⟨htarget, hchain⟩ := replaceEntries_iff.mp hr
  have hsome := htarget entry hentry
  rw [replaceTarget_none _ harm] at hsome
  cases hflatten : flatten with
  | none =>
      rw [hflatten] at hsome
      cases hsome
  | some f =>
      have hmem : value ∈ targetsOf fields flatten value entries f := by
        refine List.mem_filterMap.mpr ⟨entry, hentry, ?_⟩
        rw [replaceTarget_none _ harm, hflatten, Option.map_some, Option.bind_some, if_pos rfl]
      obtain ⟨x, y, hstep⟩ := (hchain f).exists_step hmem
      exact ⟨f, x, y, rfl, hstep⟩

variable {knows : Fin n → String → Prop}

/-- Without ambiguous keys the arms agree on the keys of a table that both accept. -/
theorem arms_agree (hdistinct : ∀ i j key, (fields i).Named key → (fields j).Named key → i = j)
    (hapart : ∀ i f key, flatten = some f → (fields i).Named key → ¬ knows f key)
    (hdeserialize : ∀ f entries a, flatten = some f → (deserialize f (.table entries)).Accepts a →
      ∀ entry ∈ entries, knows f entry.1)
    (hreplace : ∀ f entries x y, flatten = some f → Replaces (replace f) x (.table entries) y →
      ∀ entry ∈ entries, knows f entry.1)
    (hv : Visited fields flatten noneValue deserialize default entries config)
    (hr : replaceEntries fields flatten replace (.table entries) entries before = (after, .ok ())) :
    ∀ entry ∈ entries, replaceArm fields flatten entry.1 = visitArm fields entry.1 := by
  intro entry hentry
  cases harm : visitArm fields entry.1 with
  | some i =>
      have hnamed := named_of_visitArm harm
      by_cases hi : some i = flatten
      · -- The name of the flattened field is not one of the flattened fields.
        cases hcase : replaceArm fields flatten entry.1 with
        | some j =>
            have heq := hdistinct i j _ hnamed (named_of_replaceArm hcase)
            exact absurd (heq ▸ hi) (replaceArm_ne_flatten hcase)
        | none =>
            obtain ⟨f, x, y, hf, hstep⟩ := replaces_flatten hentry hcase hr
            exact absurd (hreplace f _ x y hf hstep entry hentry) (hapart i f _ hf hnamed)
      · exact replaceArm_eq hdistinct hnamed hi
  | none =>
      cases hcase : replaceArm fields flatten entry.1 with
      | none => rfl
      | some j =>
          have hmem := mem_unusedOf.mpr ⟨hentry, harm⟩
          cases hflatten : flatten with
          | none =>
              rw [hv.used hflatten] at hmem
              cases hmem
          | some f =>
              have hknown := hdeserialize f _ _ hflatten (hv.flattened f hflatten) entry hmem
              exact absurd hknown (hapart j f _ hflatten (named_of_replaceArm hcase))

/-- Flattened keys that are replaced without an error are not mixed with others. -/
theorem unmixed_of_replaceEntries
    (hapart : ∀ i f key, flatten = some f → (fields i).Named key → ¬ knows f key)
    (hreplace : ∀ f entries x y, flatten = some f → Replaces (replace f) x (.table entries) y →
      ∀ entry ∈ entries, knows f entry.1)
    (harm : ∀ entry ∈ entries, replaceArm fields flatten entry.1 = visitArm fields entry.1)
    (hr : replaceEntries fields flatten replace (.table entries) entries before = (after, .ok ())) :
    unusedOf fields entries = [] ∨ unusedOf fields entries = entries := by
  by_cases hnone : unusedOf fields entries = []
  · exact .inl hnone
  · refine .inr (List.filter_eq_self.mpr fun entry hentry => decide_eq_true ?_)
    obtain ⟨unused, hunused⟩ := List.exists_mem_of_ne_nil _ hnone
    obtain ⟨hmem, hvisit⟩ := mem_unusedOf.mp hunused
    obtain ⟨f, x, y, hf, hstep⟩ := replaces_flatten hmem ((harm unused hmem).trans hvisit) hr
    cases hcase : visitArm fields entry.1 with
    | none => rfl
    | some i =>
        exact absurd (hreplace f _ x y hf hstep entry hentry) (hapart i f _ hf (named_of_visitArm hcase))

end

namespace ConfigType
variable {α : Type} {errors : TomlErrors}

theorem Accepts.knows {c : ConfigType α} (hc : c.FlattensStructs) (hstruct : c.IsStruct)
    {entries : List (String × Toml)} {a : α} (h : c.Accepts errors (.table entries) a) :
    ∀ entry ∈ entries, c.Knows entry.1 := by
  induction c generalizing entries with
  | leaf => cases hstruct
  | option => cases hstruct
  | map => cases hstruct
  | struct fields flatten default types ih =>
      obtain ⟨entries, heq, hv⟩ := struct_accepts hc.1 h
      cases heq
      intro entry hentry
      cases harm : visitArm fields entry.1 with
      | some i => exact ⟨i, .inl (named_of_visitArm harm)⟩
      | none =>
          have hmem := mem_unusedOf.mpr ⟨hentry, harm⟩
          cases flatten with
          | none =>
              rw [hv.used rfl] at hmem
              cases hmem
          | some f =>
              exact ⟨f, .inr ⟨rfl, ih f (hc.2 f) (hc.1 f rfl) (hv.flattened f rfl) entry hmem⟩⟩

theorem knows_of_replaces {c : ConfigType α} (hc : c.FlattensStructs) (hstruct : c.IsStruct)
    {entries : List (String × Toml)} {a b : α}
    (h : Replaces (c.replace errors) a (.table entries) b) : ∀ entry ∈ entries, c.Knows entry.1 := by
  induction c with
  | leaf => cases hstruct
  | option => cases hstruct
  | map => cases hstruct
  | struct fields flatten default types ih =>
      intro entry hentry
      cases harm : replaceArm fields flatten entry.1 with
      | some i => exact ⟨i, .inl (named_of_replaceArm harm)⟩
      | none =>
          obtain ⟨f, x, y, hf, hstep⟩ := replaces_flatten hentry harm h
          exact ⟨f, .inr ⟨hf, ih f (hc.2 f) (hc.1 f hf) hstep entry hentry⟩⟩

theorem replaceSimple_replaces {parsed : Parsed α} {a b : α} (h : replaceSimple a parsed = (b, .ok ())) :
    parsed.result = .ok b := by
  unfold replaceSimple at h
  cases hresult : parsed.result with
  | ok c =>
      rw [hresult] at h
      cases h
      rfl
  | error error =>
      rw [hresult] at h
      cases h

theorem replaces_some {inner : ConfigType α} {a : α} {b : Option α} {value : Toml}
    (h : Replaces ((option inner).replace errors) (some a) value b) :
    ∃ c, b = some c ∧ Replaces (inner.replace errors) a value c := by
  rw [Replaces, replace] at h
  cases hinner : inner.replace errors a value with
  | mk c result =>
      rw [hinner] at h
      cases h
      exact ⟨c, rfl, hinner⟩

/-- Replacing never sets an option to no value. -/
theorem not_replaces_none {c : ConfigType α} {a b none' : α} {value : Toml}
    (hnone : c.noneValue = some none') (h : Replaces (c.replace errors) a value b) : b ≠ none' := by
  cases c with
  | leaf => cases hnone
  | map => cases hnone
  | struct => cases hnone
  | option inner =>
      cases hnone
      cases a with
      | none =>
          have hresult := replaceSimple_replaces h
          simp only [deserialize] at hresult
          cases hinner : (inner.deserialize errors value).result with
          | error error =>
              rw [hinner] at hresult
              cases hresult
          | ok c =>
              rw [hinner] at hresult
              cases hresult
              exact Option.some_ne_none c
      | some a =>
          obtain ⟨c, rfl, -⟩ := replaces_some h
          exact Option.some_ne_none c

theorem struct_agree {n : Nat} {α : Fin n → Type} {fields : Fin n → ConfigField}
    {flatten : Option (Fin n)} {default config before after : ∀ i, α i} {types : ∀ i, ConfigType (α i)}
    (hc : (struct fields flatten default types).FlattensStructs)
    (hu : (struct fields flatten default types).Unambiguous) {entries : List (String × Toml)}
    (hv : Visited fields flatten (fun i => (types i).noneValue)
      (fun i => (types i).deserialize errors) default entries config)
    (hr : Replaces ((struct fields flatten default types).replace errors) before (.table entries) after) :
    (∀ entry ∈ entries, replaceArm fields flatten entry.1 = visitArm fields entry.1) ∧
      (unusedOf fields entries = [] ∨ unusedOf fields entries = entries) := by
  have hknows : ∀ f entries x y, flatten = some f →
      Replaces ((types f).replace errors) x (.table entries) y →
        ∀ entry ∈ entries, (types f).Knows entry.1 :=
    fun f _ _ _ hf => knows_of_replaces (hc.2 f) (hc.1 f hf)
  have harm := arms_agree hu.1 hu.2.1 (fun f _ _ hf => Accepts.knows (hc.2 f) (hc.1 f hf)) hknows hv hr
  exact ⟨harm, unmixed_of_replaceEntries hu.2.1 hknows harm hr⟩

theorem replaces_unique {replace : α → Toml → α × Except String Unit} {a b c : α} {value : Toml}
    (h : Replaces replace a value b) (h' : Replaces replace a value c) : b = c :=
  congrArg Prod.fst (h.symm.trans h')

theorem chain_some {inner : ConfigType α} {values : List Toml} {a b : α}
    (h : Chain (Replaces ((option inner).replace errors)) values (some a) (some b)) :
    Chain (Replaces (inner.replace errors)) values a b := by
  induction values generalizing a with
  | nil =>
      rw [Chain.nil_iff] at h
      exact Chain.nil_iff.mpr (Option.some.inj h)
  | cons value values ih =>
      obtain ⟨c, hhead, htail⟩ := Chain.cons_iff.mp h
      obtain ⟨d, rfl, hstep⟩ := replaces_some hhead
      exact .cons hstep (ih htail)

theorem replaces_map {inner : ConfigType α} {m m' a : String → Option α} {value : Toml}
    (ha : (map inner).Accepts errors value a) (h : Replaces ((map inner).replace errors) m value m') :
    m' = fun key => (a key).or (m key) := by
  rw [Replaces, replace, ha.1] at h
  exact (congrArg Prod.fst h).symm

/-- A field that is assigned what replacing leads to was not set to "none". -/
theorem accepts_of_replaces {c : ConfigType α} {a b x : α} {value other : Toml}
    (h : FieldAccepts c.noneValue (c.deserialize errors) a value b)
    (hr : Replaces (c.replace errors) x other b) :
    (value.isNone → c.noneValue = none) ∧ c.Accepts errors value b := by
  rcases h with h | ⟨hno, h⟩
  · split at h
    · exact absurd rfl (not_replaces_none h hr)
    · cases h
  · refine ⟨fun hvalue => ?_, h⟩
    rwa [if_pos hvalue] at hno

theorem single_replaces {c : ConfigType α} {a b d : α} {value : Toml} {values : List Toml}
    (hassigned : Chain (FieldAccepts c.noneValue (c.deserialize errors)) [value] d a)
    (hlast : Chain (Replaces (c.replace errors)) (value :: values) b a) :
    (value.isNone → c.noneValue = none) ∧ c.Accepts errors value a := by
  obtain ⟨x, hhead, htail⟩ := Chain.cons_iff.mp hassigned
  obtain rfl := Chain.nil_iff.mp htail
  obtain ⟨y, other, hstep⟩ := hlast.exists_last
  exact accepts_of_replaces hhead hstep

/-- Replacing with an accepted value any number of times leads to what it is deserialized to
only if replacing with it once does. -/
theorem settles {c : ConfigType α} (hc : c.FlattensStructs) (hu : c.Unambiguous) {value : Toml} {a : α}
    (ho : c.GivenOnce value) (ha : c.Accepts errors value a) (count : Nat) (b : α)
    (h : Chain (Replaces (c.replace errors)) (List.replicate (count + 1) value) b a) :
    Replaces (c.replace errors) b value a := by
  induction c generalizing value count with
  | leaf default deserialize => exact replaceSimple_ok ha.1
  | option inner ih =>
      obtain ⟨d, rfl, hd⟩ := option_accepts ha
      cases b with
      | none => exact replaceSimple_ok ha.1
      | some b =>
          have hinner := ih hc hu ho hd count b (chain_some h)
          rw [Replaces] at hinner
          rw [Replaces, replace, hinner]
  | map inner ih =>
      rw [List.replicate_succ, Chain.cons_iff] at h
      obtain ⟨m, hhead, htail⟩ := h
      have hm := replaces_map ha hhead
      have hfixed : Replaces ((map inner).replace errors) m value m := by
        rw [Replaces, replace, ha.1]
        refine Prod.ext (funext fun key => ?_) rfl
        have hkey : m key = (a key).or (b key) := congrFun hm key
        simp only
        rw [hkey, ← Option.or_assoc, Option.or_self]
      exact (Chain.eq_of_fixed (fun _ _ => replaces_unique) hfixed htail) ▸ hhead
  | struct fields flatten default types ih =>
      obtain ⟨entries, rfl, hv⟩ := struct_accepts hc.1 ha
      have hfields := Chain.flatten (fun x y hstep => (replaceEntries_iff.mp hstep).2) h
      rw [List.replicate_succ] at h
      obtain ⟨x, hhead, -⟩ := Chain.cons_iff.mp h
      obtain ⟨harm, hunmixed⟩ := struct_agree hc hu hv hhead
      refine replaceEntries_iff.mpr ⟨(replaceEntries_iff.mp hhead).1, fun i => ?_⟩
      have hfield := hfields i
      by_cases hi : some i = flatten
      · rw [targetsOf_flatten hi.symm harm] at hfield ⊢
        rw [List.flatten_replicate_replicate] at hfield
        have haccepts := hv.flattened i hi.symm
        rcases hunmixed with hnone | hall
        · rw [hnone, List.length_nil] at hfield ⊢
          rwa [Nat.mul_zero] at hfield
        · rw [hall] at haccepts hfield ⊢
          have hgiven : (types i).GivenOnce (.table entries) := hall ▸ ho.2.2 i hi.symm
          cases entries with
          | nil => rwa [List.length_nil, Nat.mul_zero, List.replicate_zero] at hfield
          | cons entry rest =>
              refine Chain.settle (fun count b => ih i (hc.2 i) (hu.2.2 i) hgiven haccepts count b)
                (fun _ _ _ => replaces_unique) ?_ (Nat.succ_pos _) hfield
              exact Nat.le_mul_of_pos_left _ (Nat.succ_pos count)
      · rw [targetsOf_field hi harm] at hfield ⊢
        have hassigned := hv.assigned i hi
        have honce : (valuesOf fields entries i).length ≤ 1 := ho.1 i
        have hgiven : ∀ given ∈ valuesOf fields entries i, (types i).GivenOnce given := ho.2.1 i
        revert hfield hassigned honce hgiven
        cases valuesOf fields entries i with
        | nil =>
            intro hfield hassigned honce hgiven
            rwa [List.flatten_replicate_nil] at hfield
        | cons value values =>
            intro hfield hassigned honce hgiven
            obtain rfl : values = [] := List.eq_nil_of_length_eq_zero (by rw [List.length_cons] at honce; omega)
            rw [List.flatten_replicate_singleton] at hfield
            have haccepts := (single_replaces hassigned hfield).2
            have hreplaces := ih i (hc.2 i) (hu.2.2 i) (hgiven value List.mem_cons_self) haccepts count _ hfield
            exact .cons hreplaces (.nil _)

/-- The first and the second of any number of times. -/
theorem replaces_again {replace : α → Toml → α × Except String Unit} {a b : α} {value : Toml}
    (hsettle : ∀ count b, Chain (Replaces replace) (List.replicate (count + 1) value) b a →
      Replaces replace b value a) {count : Nat} (hpos : 1 ≤ count)
    (h : Chain (Replaces replace) (List.replicate count value) b a) :
    Replaces replace b value a ∧ (2 ≤ count → Replaces replace a value a) := by
  obtain ⟨c, hstep, htail⟩ := Chain.cons_iff.mp
    (Chain.settle hsettle (fun _ _ _ => replaces_unique) hpos (Nat.le_refl 1) h)
  obtain rfl := Chain.nil_iff.mp htail
  refine ⟨hstep, fun htwo => ?_⟩
  obtain ⟨d, hd, htail⟩ := Chain.cons_iff.mp
    (Chain.settle hsettle (fun _ _ _ => replaces_unique) htwo (Nat.le_succ 1) h)
  rw [← replaces_unique hstep hd] at htail
  obtain ⟨d, hd, htail⟩ := Chain.cons_iff.mp htail
  rwa [Chain.nil_iff.mp htail] at hd

theorem mergeable_of_replaces {c : ConfigType α} (hc : c.FlattensStructs) (hu : c.Unambiguous)
    (base : Option α) {value : Toml} {a : α} (ho : c.GivenOnce value) (ha : c.Accepts errors value a)
    (hr : Replaces (c.replace errors) (base.getD a) value a) : c.Mergeable base value := by
  induction c generalizing value with
  | leaf default deserialize => trivial
  | option inner ih =>
      obtain ⟨d, rfl, hd⟩ := option_accepts ha
      cases base with
      | none =>
          obtain ⟨e, heq, hinner⟩ := replaces_some hr
          cases heq
          exact ih hc hu none ho hd hinner
      | some base =>
          cases base with
          | none => trivial
          | some base =>
              obtain ⟨e, heq, hinner⟩ := replaces_some hr
              cases heq
              exact ih hc hu (some base) ho hd hinner
  | map inner ih =>
      intro m hm key hkey
      subst hm
      rw [← map_accepts ha key, replaces_map ha hr]
      simp only [Option.getD_some, Option.isSome_or, hkey, Bool.or_true]
  | struct fields flatten default types ih =>
      obtain ⟨entries, rfl, hv⟩ := struct_accepts hc.1 ha
      have hfields := (replaceEntries_iff.mp hr).2
      obtain ⟨harm, hunmixed⟩ := struct_agree hc hu hv hr
      have honce : ∀ i, (valuesOf fields entries i).length ≤ 1 := ho.1
      have hgiven : ∀ i, ∀ given ∈ valuesOf fields entries i, (types i).GivenOnce given := ho.2.1
      have hsingle : ∀ i, some i ≠ flatten → ∀ value, valuesOf fields entries i = [value] →
          (value.isNone → (types i).noneValue = none) ∧
            (types i).Mergeable (base.map fun config => config i) value := by
        intro i hi value hvalue
        have hfield := hfields i
        have hassigned := hv.assigned i hi
        rw [targetsOf_field hi harm, hvalue] at hfield
        rw [hvalue] at hassigned
        obtain ⟨hnone, haccepts⟩ := single_replaces hassigned hfield
        obtain ⟨b, hstep, htail⟩ := Chain.cons_iff.mp hfield
        obtain rfl := Chain.nil_iff.mp htail
        rw [getD_apply] at hstep
        refine ⟨hnone, ih i (hc.2 i) (hu.2.2 i) _ (hgiven i value ?_) haccepts hstep⟩
        rw [hvalue]
        exact List.mem_cons_self
      have hempty : ∀ i, some i = flatten → valuesOf fields entries i = [] :=
        fun i hi => valuesOf_flatten hi harm
      have hflattened : ∀ f, flatten = some f →
          (types f).GivenOnce (.table (unusedOf fields entries)) ∧
          Replaces ((types f).replace errors) (base.getD a f) (.table (unusedOf fields entries)) (a f) ∧
          (2 ≤ (unusedOf fields entries).length →
            Replaces ((types f).replace errors) (a f) (.table (unusedOf fields entries)) (a f)) := by
        intro f hf
        have hgiven : (types f).GivenOnce (.table (unusedOf fields entries)) := ho.2.2 f hf
        have haccepts := hv.flattened f hf
        have hfield := hfields f
        rw [targetsOf_flatten hf harm] at hfield
        refine ⟨hgiven, ?_⟩
        by_cases hnone : unusedOf fields entries = []
        · rw [hnone, List.length_nil, List.replicate_zero, Chain.nil_iff] at hfield
          rw [hnone, hfield]
          exact ⟨(hc.1 f hf).replace _, fun htwo => absurd htwo (Nat.not_succ_le_zero 1)⟩
        · have hall := hunmixed.resolve_left hnone
          have hpos := List.length_pos_iff.mpr hnone
          have hsettle := settles (hc.2 f) (hu.2.2 f) hgiven haccepts
          rw [hall] at hsettle hfield hpos ⊢
          exact replaces_again hsettle hpos hfield
      refine ⟨harm, fun i value hmem hvalue => ?_, fun config hconfig i hi hnone => ?_,
        fun i value hvalue => ?_, fun i htwo => ?_, fun _ => hunmixed, fun i hi => ?_, fun i hi htwo => ?_⟩
      · by_cases hi : some i = flatten
        · rw [Toml.asTable, Option.getD_some, hempty i hi] at hmem
          cases hmem
        · have hvalue' : valuesOf fields entries i = [value] := by
            obtain ⟨given, hgiven⟩ := List.length_eq_one_iff.mp
              (Nat.le_antisymm (honce i) (List.length_pos_of_mem hmem))
            have heq : value ∈ valuesOf fields entries i := hmem
            rw [hgiven, List.mem_singleton] at heq
            rw [hgiven, heq]
          exact (hsingle i hi value hvalue').1 hvalue
      · have hfield := hfields i
        have hassigned := hv.assigned i hi
        have hnone' : valuesOf fields entries i = [] := hnone
        rw [targetsOf_field hi harm, hnone', Chain.nil_iff, hconfig] at hfield
        rw [hnone', Chain.nil_iff] at hassigned
        exact hfield.trans hassigned.symm
      · by_cases hi : some i = flatten
        · cases (hempty i hi).symm.trans hvalue
        · exact (hsingle i hi value hvalue).2
      · exact absurd (honce i) (Nat.not_le.mpr htwo)
      · obtain ⟨hgiven, hfirst, -⟩ := hflattened i hi
        rw [getD_apply] at hfirst
        exact ih i (hc.2 i) (hu.2.2 i) _ hgiven (hv.flattened i hi) hfirst
      · obtain ⟨hgiven, -, hagain⟩ := hflattened i hi
        exact ih i (hc.2 i) (hu.2.2 i) none hgiven (hv.flattened i hi) (hagain htwo)

/-- Replacing the default with an accepted value agrees with deserializing it if the value
merges, and only then if its keys are unambiguous and none of them is given twice. -/
theorem replace_default_agrees {c : ConfigType α} (hc : c.FlattensStructs) {value : Toml} {a : α}
    (ha : c.Accepts errors value a) :
    (c.Mergeable (some c.defaultValue) value → c.replace errors c.defaultValue value = (a, .ok ())) ∧
      (c.Unambiguous → c.GivenOnce value →
        (c.replace errors c.defaultValue value = (a, .ok ()) ↔ c.Mergeable (some c.defaultValue) value)) := by
  have hmerge : c.Mergeable (some c.defaultValue) value → Replaces (c.replace errors) c.defaultValue value a :=
    Mergeable.replace hc ha
  exact ⟨hmerge, fun hu ho => ⟨mergeable_of_replaces hc hu (some c.defaultValue) ho ha, hmerge⟩⟩

end ConfigType

/-! ### A struct with a flattened field -/

namespace WindowConfig

def errors : TomlErrors where
  invalidType _ expected := "invalid type, expected " ++ expected
  inKey key error := error ++ "\nin " ++ key

def bool : ConfigType Bool := .leaf false fun value =>
  match value with
  | .boolean b => ⟨.ok b, []⟩
  | value => ⟨.error (errors.invalidType value "a boolean"), []⟩

def string : ConfigType String := .leaf "" fun value =>
  match value with
  | .string s => ⟨.ok s, []⟩
  | value => ⟨.error (errors.invalidType value "a string"), []⟩

def identity : ConfigType (Fin 1 → String) :=
  .struct (fun _ => { name := "title" }) none (fun _ => "Velacritty") fun _ => string

def Field : Fin 2 → Type
  | 0 => Bool
  | 1 => Fin 1 → String

def fields : Fin 2 → ConfigField
  | 0 => { name := "dynamic_title" }
  | 1 => { name := "identity" }

/-- Two fields of a `WindowConfig`, the flattened one among them. -/
def window : ConfigType (∀ i, Field i) :=
  .struct (α := Field) fields (some 1)
    (fun i => match i with
      | 0 => true
      | 1 => fun _ => "Velacritty")
    fun i => match i with
      | 0 => bool
      | 1 => identity

theorem window_flattensStructs : window.FlattensStructs := by
  refine ⟨fun i hi => ?_, fun i => ?_⟩
  · cases hi
    trivial
  · match i with
    | 0 => trivial
    | 1 => exact ⟨fun i hi => (nomatch hi), fun _ => trivial⟩

theorem identity_mergeable (value : String) : identity.Mergeable (some identity.defaultValue)
    (.table [("title", .string value)]) := by
  refine ⟨fun entry hentry => ?_, fun _ _ _ _ => rfl, fun config hconfig i _ _ => ?_,
    fun _ _ _ => trivial, fun _ _ _ _ _ => trivial, nofun, nofun, nofun⟩
  · rw [List.mem_singleton.mp hentry]
    rfl
  · cases hconfig
    rfl

theorem window_mergeable (value : String) : window.Mergeable (some window.defaultValue)
    (.table [("title", .string value)]) := by
  have hnone : ∀ i, valuesOf fields [("title", .string value)] i = [] := by
    intro i
    match i with
    | 0 => rfl
    | 1 => rfl
  refine ⟨fun entry hentry => ?_, fun i given hgiven => ?_, fun config hconfig i hi _ => ?_,
    fun i given hgiven => ?_, fun i htwo => ?_, fun _ => .inr rfl, fun i hi => ?_, fun i hi htwo => ?_⟩
  · rw [List.mem_singleton.mp hentry]
    rfl
  · cases (hnone i) ▸ hgiven
  · cases hconfig
    rfl
  · cases (hnone i).symm.trans hgiven
  · cases (hnone i) ▸ htwo
  · cases hi
    exact identity_mergeable value
  · exact absurd htwo (Nat.not_succ_le_self 1)

/-- A flattened key alone. -/
theorem replace_title : ∃ config, window.Accepts errors (.table [("title", .string "top")]) config ∧
    window.replace errors window.defaultValue (.table [("title", .string "top")]) = (config, .ok ()) := by
  have haccepts : window.Accepts errors (.table [("title", .string "top")]) _ :=
    ⟨rfl, fun entry h => by cases h⟩
  exact ⟨_, haccepts, (ConfigType.replace_default_agrees window_flattensStructs haccepts).1 (window_mergeable "top")⟩

/-- The flattened field gets the whole table, in which it does not know the other key. -/
theorem replace_mixed : ∃ config,
    window.Accepts errors (.table [("dynamic_title", .boolean false), ("title", .string "top")]) config ∧
    (window.replace errors window.defaultValue
      (.table [("dynamic_title", .boolean false), ("title", .string "top")])).2 =
        .error "Field \"dynamic_title\" does not exist" := by
  exact ⟨_, ⟨rfl, fun entry h => by cases h⟩, rfl⟩

end WindowConfig
end Velacritty

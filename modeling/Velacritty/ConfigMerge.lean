import Velacritty.ConfigDerive

/-! Whether replacing the fields that a table gives agrees with deserializing the table. -/
namespace Velacritty

def OnlyWarns (log : List ConfigLog) : Prop := ∀ entry ∈ log, ∃ message, entry = .warning message

/-- A value was returned without an unused key or a field error. -/
def Parsed.Accepts {α : Type} (parsed : Parsed α) (a : α) : Prop :=
  parsed.result = .ok a ∧ OnlyWarns parsed.log

section
variable {n : Nat} {α : Fin n → Type} {fields : Fin n → ConfigField} {flatten : Option (Fin n)}
  {entries rest : List (String × Toml)}

/-- The values that the table gives to a field. -/
def valuesOf (fields : Fin n → ConfigField) (entries : List (String × Toml)) (i : Fin n) :
    List Toml := (entries.filter fun entry => visitArm fields entry.1 = some i).map Prod.snd

def unusedOf (fields : Fin n → ConfigField) (entries : List (String × Toml)) :
    List (String × Toml) := entries.filter fun entry => visitArm fields entry.1 = none

/-- When replacing the entries of a table in a struct does the same as deserializing them.
`mergeable i base value` says this of a field's value; there is no `base` if it is what
deserializing the same value has left. -/
structure MergesFields (fields : Fin n → ConfigField) (flatten : Option (Fin n)) (default : ∀ i, α i)
    (noneValue : ∀ i, Option (α i)) (mergeable : ∀ i, Option (α i) → Toml → Prop)
    (base : Option (∀ i, α i)) (entries : List (String × Toml)) : Prop where
  /-- No key is the one of a skipped field, or the name of the flattened one. -/
  arm : ∀ entry ∈ entries, replaceArm fields flatten entry.1 = visitArm fields entry.1
  /-- No optional field is set to "none". -/
  not_none : ∀ i, ∀ value ∈ valuesOf fields entries i, value.isNone → noneValue i = none
  /-- Fields that are not given have the default already. -/
  missing : ∀ config, base = some config → ∀ i, some i ≠ flatten → valuesOf fields entries i = [] →
    config i = default i
  given : ∀ i value, valuesOf fields entries i = [value] → mergeable i (base.map fun config => config i) value
  /-- What is given again does not depend on what was there. -/
  repeated : ∀ i, 2 ≤ (valuesOf fields entries i).length → ∀ value ∈ valuesOf fields entries i,
    ∀ a, mergeable i (some a) value
  /-- Flattened keys are not mixed with others. -/
  unmixed : flatten.isSome → unusedOf fields entries = [] ∨ unusedOf fields entries = entries
  flattened : ∀ i, flatten = some i →
    mergeable i (base.map fun config => config i) (.table (unusedOf fields entries))
  /-- Each flattened key replaces the flattened field with all of them. -/
  again : ∀ i, flatten = some i → 2 ≤ (unusedOf fields entries).length →
    mergeable i none (.table (unusedOf fields entries))

end

namespace ConfigType
variable {α : Type} (errors : TomlErrors)

/-- Replacing `base` with the value agrees with deserializing the value. Without a `base` it
is replaced by what deserializing the same value has left. -/
def Mergeable {α : Type} : ConfigType α → Option α → Toml → Prop
  | leaf _ _, _, _ => True
  | option _, some none, _ => True
  | option inner, some (some a), value => inner.Mergeable (some a) value
  | option inner, none, value => inner.Mergeable none value
  | map _, base, value => ∀ m, base = some m → ∀ key, (m key).isSome → key ∈ value.keys
  | struct fields flatten default types, base, value =>
      MergesFields fields flatten default (fun i => (types i).noneValue)
        (fun i => (types i).Mergeable) base (value.asTable.getD [])

/-- Deserializing returns `a`, without an unused key or a field error. -/
def Accepts (c : ConfigType α) (value : Toml) (a : α) : Prop :=
  (c.deserialize errors value).Accepts a

def IsStruct {α : Type} : ConfigType α → Prop
  | struct _ _ _ _ => True
  | leaf _ _ => False
  | option _ => False
  | map _ => False

def FlattensStructs {α : Type} : ConfigType α → Prop
  | leaf _ _ => True
  | option inner => inner.FlattensStructs
  | map inner => inner.FlattensStructs
  | struct _ flatten _ types => (∀ i, flatten = some i → (types i).IsStruct) ∧
      ∀ i, (types i).FlattensStructs

end ConfigType

/-! ### Replacing entries -/

inductive Chain {α β : Type} (step : α → β → α → Prop) : List β → α → α → Prop
  | nil (a : α) : Chain step [] a a
  | cons {value : β} {values : List β} {a b c : α} (head : step a value b)
      (tail : Chain step values b c) : Chain step (value :: values) a c

namespace Chain
variable {α β : Type} {step step' : α → β → α → Prop} {value : β} {values : List β} {a b c : α}

theorem nil_iff : Chain step [] a b ↔ a = b := by
  constructor
  · intro h
    cases h with
    | nil => rfl
  · intro h
    exact h ▸ .nil a

theorem cons_iff : Chain step (value :: values) a c ↔
    ∃ b, step a value b ∧ Chain step values b c := by
  constructor
  · intro h
    cases h with
    | cons head tail => exact ⟨_, head, tail⟩
  · rintro ⟨b, head, tail⟩
    exact .cons head tail

theorem imp (h : Chain step values a b)
    (himp : ∀ value ∈ values, ∀ a b, step a value b → step' a value b) : Chain step' values a b := by
  induction h with
  | nil a => exact .nil a
  | cons head tail ih =>
      rw [List.forall_mem_cons] at himp
      exact .cons (himp.1 _ _ head) (ih himp.2)

theorem replicate {count : Nat} (h : 0 < count → step a value a) :
    Chain step (List.replicate count value) a a := by
  induction count with
  | zero => exact .nil a
  | succ count ih =>
      rw [List.replicate_succ]
      exact .cons (h (Nat.succ_pos count)) (ih fun _ => h (Nat.succ_pos count))

end Chain

def Replaces {α : Type} (replace : α → Toml → α × Except String Unit) (a : α) (value : Toml) (b : α) :
    Prop := replace a value = (b, .ok ())

section
variable {n : Nat} {α : Fin n → Type} {fields : Fin n → ConfigField} {flatten : Option (Fin n)}
  {replace : ∀ i, α i → Toml → α i × Except String Unit} {value : Toml}
  {entry : String × Toml} {entries rest : List (String × Toml)}

def targetsOf (fields : Fin n → ConfigField) (flatten : Option (Fin n)) (value : Toml)
    (entries : List (String × Toml)) (i : Fin n) : List Toml :=
  entries.filterMap fun entry => (replaceTarget fields flatten value entry).bind fun target =>
    if target.1 = i then some target.2 else none

theorem targetsOf_cons {i j : Fin n} {next : Toml}
    (h : replaceTarget fields flatten value entry = some (j, next)) :
    targetsOf fields flatten value (entry :: rest) i =
      if j = i then next :: targetsOf fields flatten value rest i
      else targetsOf fields flatten value rest i := by
  unfold targetsOf
  by_cases hj : j = i
  · rw [if_pos hj, List.filterMap_cons_some]
    rw [h, Option.bind_some, if_pos hj]
  · rw [if_neg hj, List.filterMap_cons_none]
    rw [h, Option.bind_some, if_neg hj]

/-- The entries are replaced without an error if each has a field, and no field's values
meet an error. The result of a field depends on its own values only. -/
theorem replaceEntries_iff {config config' : ∀ i, α i} :
    replaceEntries fields flatten replace value entries config = (config', .ok ()) ↔
      (∀ entry ∈ entries, (replaceTarget fields flatten value entry).isSome) ∧
        ∀ i, Chain (Replaces (replace i)) (targetsOf fields flatten value entries i)
          (config i) (config' i) := by
  induction entries generalizing config with
  | nil =>
      constructor
      · intro h
        cases h
        exact ⟨fun _ h => absurd h List.not_mem_nil, fun _ => .nil _⟩
      · rintro ⟨-, h⟩
        have heq : config = config' := funext fun i => Chain.nil_iff.mp (h i)
        rw [heq]
        rfl
  | cons entry rest ih =>
      rw [List.forall_mem_cons, replaceEntries]
      cases htarget : replaceTarget fields flatten value entry with
      | none =>
          refine iff_of_false (fun h => ?_) fun h => absurd h.1.1 Bool.false_ne_true
          cases h
      | some target =>
          obtain ⟨j, next⟩ := target
          simp only
          cases hreplace : replace j (config j) next with
          | mk field result =>
              cases result with
              | error error =>
                  refine iff_of_false (fun h => by cases h) fun h => ?_
                  have hj := h.2 j
                  rw [targetsOf_cons htarget, if_pos rfl, Chain.cons_iff] at hj
                  obtain ⟨b, head, -⟩ := hj
                  rw [Replaces, hreplace] at head
                  cases head
              | ok =>
                  simp only
                  rw [ih, Option.isSome_some, and_iff_right rfl]
                  refine and_congr_right fun _ => forall_congr' fun i => ?_
                  rw [targetsOf_cons htarget]
                  by_cases hj : j = i
                  · subst hj
                    rw [if_pos rfl, Function.update_self, Chain.cons_iff]
                    constructor
                    · intro h
                      exact ⟨field, hreplace, h⟩
                    · rintro ⟨b, heq, h⟩
                      cases hreplace.symm.trans heq
                      exact h
                  · rw [if_neg hj, Function.update_of_ne (Ne.symm hj)]

end

/-! ### Deserializing entries -/

def FieldAccepts {α : Type} (noneValue : Option α) (deserialize : Toml → Parsed α) (_ : α)
    (value : Toml) (b : α) : Prop :=
  (if value.isNone then noneValue else none) = some b ∨
    (if value.isNone then noneValue else none) = none ∧ (deserialize value).Accepts b

theorem onlyWarns_append {log more : List ConfigLog} :
    OnlyWarns (log ++ more) ↔ OnlyWarns log ∧ OnlyWarns more := List.forall_mem_append

section
variable {n : Nat} {α : Fin n → Type} {fields : Fin n → ConfigField} {flatten : Option (Fin n)}
  {noneValue : ∀ i, Option (α i)} {deserialize : ∀ i, Toml → Parsed (α i)}
  {entry : String × Toml} {entries rest : List (String × Toml)} {st : Visit α}

theorem valuesOf_cons (i : Fin n) : valuesOf fields (entry :: rest) i =
    if visitArm fields entry.1 = some i then entry.2 :: valuesOf fields rest i
    else valuesOf fields rest i := by
  unfold valuesOf
  rw [List.filter_cons]
  by_cases harm : visitArm fields entry.1 = some i
  · rw [if_pos (decide_eq_true harm), if_pos harm, List.map_cons]
  · rw [if_neg (by rw [decide_eq_true_eq]; exact harm), if_neg harm]

theorem unusedOf_cons : unusedOf fields (entry :: rest) =
    if visitArm fields entry.1 = none then entry :: unusedOf fields rest
    else unusedOf fields rest := by
  unfold unusedOf
  rw [List.filter_cons]
  by_cases harm : visitArm fields entry.1 = none
  · rw [if_pos (decide_eq_true harm), if_pos harm]
  · rw [if_neg (by rw [decide_eq_true_eq]; exact harm), if_neg harm]

theorem visitEntry_assigns {i : Fin n} (harm : visitArm fields entry.1 = some i)
    (hlog : OnlyWarns (visitEntry fields noneValue deserialize st entry).log) :
    OnlyWarns st.log ∧ ∃ b, FieldAccepts (noneValue i) (deserialize i) (st.config i) entry.2 b ∧
      (visitEntry fields noneValue deserialize st entry).config = Function.update st.config i b ∧
      (visitEntry fields noneValue deserialize st entry).unused = st.unused := by
  simp only [visitEntry, harm] at hlog ⊢
  cases hnone : if entry.2.isNone then noneValue i else none with
  | some b =>
      simp only [hnone] at hlog ⊢
      exact ⟨hlog, b, .inl hnone, rfl, trivial⟩
  | none =>
      simp only [hnone] at hlog ⊢
      cases hresult : (deserialize i entry.2).result with
      | error error =>
          simp only [hresult, onlyWarns_append] at hlog
          obtain ⟨message, hmessage⟩ := hlog.1.2 _ List.mem_cons_self
          cases hmessage
      | ok b =>
          simp only [hresult, onlyWarns_append] at hlog ⊢
          exact ⟨hlog.1.1, b, .inr ⟨hnone, hresult, hlog.1.2⟩, rfl, trivial⟩

/-- Without a field error, each field is assigned its values in their order. -/
theorem visit_assigns (hlog : OnlyWarns (entries.foldl (visitEntry fields noneValue deserialize) st).log) :
    OnlyWarns st.log ∧
      (entries.foldl (visitEntry fields noneValue deserialize) st).unused =
        st.unused ++ unusedOf fields entries ∧
      ∀ i, Chain (FieldAccepts (noneValue i) (deserialize i)) (valuesOf fields entries i)
        (st.config i) ((entries.foldl (visitEntry fields noneValue deserialize) st).config i) := by
  induction entries generalizing st with
  | nil => exact ⟨hlog, (List.append_nil _).symm, fun i => .nil _⟩
  | cons entry rest ih =>
      rw [List.foldl_cons] at hlog ⊢
      obtain ⟨hstep, hunused, hchain⟩ := ih hlog
      rw [hunused, unusedOf_cons]
      cases harm : visitArm fields entry.1 with
      | none =>
          have heq : visitEntry fields noneValue deserialize st entry =
              { st with unused := st.unused ++ [entry] } := by
            simp only [visitEntry, harm]
          simp only [heq] at hstep hchain ⊢
          refine ⟨hstep, ?_, fun i => ?_⟩
          · rw [if_pos trivial, List.append_assoc, List.singleton_append]
          · rw [valuesOf_cons, harm, if_neg (Option.some_ne_none i).symm]
            exact hchain i
      | some j =>
          obtain ⟨hst, b, hb, hconfig, hunused'⟩ := visitEntry_assigns harm hstep
          refine ⟨hst, ?_, fun i => ?_⟩
          · rw [if_neg (Option.some_ne_none j), hunused']
          · have htail := hchain i
            rw [hconfig] at htail
            rw [valuesOf_cons, harm]
            by_cases hj : j = i
            · subst hj
              rw [Function.update_self] at htail
              rw [if_pos rfl]
              exact .cons hb htail
            · rw [Function.update_of_ne (Ne.symm hj)] at htail
              rw [if_neg fun heq => hj (Option.some.inj heq)]
              exact htail

/-- What a struct is deserialized to: the fields from their values, and the flattened one from
the keys that are not used. -/
structure Visited (fields : Fin n → ConfigField) (flatten : Option (Fin n))
    (noneValue : ∀ i, Option (α i)) (deserialize : ∀ i, Toml → Parsed (α i)) (default : ∀ i, α i)
    (entries : List (String × Toml)) (config : ∀ i, α i) : Prop where
  assigned : ∀ i, some i ≠ flatten →
    Chain (FieldAccepts (noneValue i) (deserialize i)) (valuesOf fields entries i) (default i) (config i)
  used : flatten = none → unusedOf fields entries = []
  flattened : ∀ i, flatten = some i →
    (deserialize i (.table (unusedOf fields entries))).Accepts (config i)

theorem visitMap_accepts {default defaults config : ∀ i, α i}
    (hok : ∀ i, flatten = some i → ∀ entries, ∃ b, (deserialize i (.table entries)).result = .ok b)
    (h : (visitMap fields flatten noneValue deserialize default defaults entries).Accepts config) :
    Visited fields flatten noneValue deserialize default entries config := by
  obtain ⟨hresult, hlog⟩ := h
  unfold visitMap at hresult hlog
  cases flatten with
  | none =>
      simp only [onlyWarns_append] at hlog
      obtain ⟨-, hunused, hassigned⟩ := visit_assigns hlog.1
      cases hresult
      refine ⟨fun i _ => hassigned i, fun _ => ?_, fun i h => by cases h⟩
      rw [hunused, List.nil_append] at hlog
      cases hcase : unusedOf fields entries with
      | nil => rfl
      | cons entry rest =>
          rw [hcase, List.map_cons] at hlog
          obtain ⟨message, hmessage⟩ := hlog.2 _ List.mem_cons_self
          cases hmessage
  | some f =>
      simp only [onlyWarns_append] at hlog
      obtain ⟨-, hunused, hassigned⟩ := visit_assigns hlog.1
      rw [List.nil_append] at hunused
      simp only [hunused] at hresult hlog
      obtain ⟨b, hb⟩ := hok f rfl (unusedOf fields entries)
      simp only [hb, Except.ok.injEq] at hresult
      subst hresult
      refine ⟨fun i hi => ?_, fun h => absurd h (Option.some_ne_none f), fun i hi => ?_⟩
      · rw [Function.update_of_ne fun heq => hi (congrArg some heq)]
        exact hassigned i
      · cases hi
        rw [Function.update_self]
        exact ⟨hb, hlog.2⟩

end

/-! ### Merging agrees with deserializing -/

section
variable {n : Nat} {α : Fin n → Type} {fields : Fin n → ConfigField} {flatten : Option (Fin n)}
  {noneValue : ∀ i, Option (α i)} {deserialize : ∀ i, Toml → Parsed (α i)}
  {replace : ∀ i, α i → Toml → α i × Except String Unit} {value : Toml}
  {entry : String × Toml} {entries rest : List (String × Toml)}

theorem replaceArm_ne_flatten {key : String} {i : Fin n} (h : replaceArm fields flatten key = some i) :
    some i ≠ flatten := by
  have hfound := List.find?_some h
  rw [Bool.and_eq_true, decide_eq_true_eq] at hfound
  exact hfound.1

theorem replaceTarget_some {i : Fin n} (value : Toml)
    (harm : replaceArm fields flatten entry.1 = some i) :
    replaceTarget fields flatten value entry = some (i, entry.2) := by
  rw [replaceTarget, harm]

theorem replaceTarget_none (value : Toml) (harm : replaceArm fields flatten entry.1 = none) :
    replaceTarget fields flatten value entry = flatten.map fun i => (i, value) := by
  rw [replaceTarget, harm]

/-- Where the arms agree, a field that is not flattened is replaced with the values that
deserializing assigns to it. -/
theorem targetsOf_field {i : Fin n} (hi : some i ≠ flatten)
    (harm : ∀ entry ∈ entries, replaceArm fields flatten entry.1 = visitArm fields entry.1) :
    targetsOf fields flatten value entries i = valuesOf fields entries i := by
  induction entries with
  | nil => rfl
  | cons entry rest ih =>
      rw [List.forall_mem_cons] at harm
      rw [valuesOf_cons, ← ih harm.2, ← harm.1]
      cases hcase : replaceArm fields flatten entry.1 with
      | some j =>
          rw [targetsOf_cons (replaceTarget_some value hcase)]
          simp only [Option.some.injEq]
      | none =>
          rw [if_neg (Option.some_ne_none i).symm]
          have htarget := replaceTarget_none value hcase
          cases flatten with
          | none =>
              refine List.filterMap_cons_none ?_
              rw [htarget]
              rfl
          | some f =>
              rw [targetsOf_cons htarget, if_neg fun heq => hi (congrArg some heq.symm)]

/-- The flattened field is replaced with the whole table for each of its keys. -/
theorem targetsOf_flatten {f : Fin n} (hf : flatten = some f)
    (harm : ∀ entry ∈ entries, replaceArm fields flatten entry.1 = visitArm fields entry.1) :
    targetsOf fields flatten value entries f =
      List.replicate (unusedOf fields entries).length value := by
  induction entries with
  | nil => rfl
  | cons entry rest ih =>
      rw [List.forall_mem_cons] at harm
      rw [unusedOf_cons, ← harm.1]
      cases hcase : replaceArm fields flatten entry.1 with
      | some j =>
          have hne := replaceArm_ne_flatten hcase
          rw [targetsOf_cons (replaceTarget_some value hcase), if_neg (Option.some_ne_none j),
            if_neg fun heq : j = f => hne (heq ▸ hf.symm), ih harm.2]
      | none =>
          have htarget := replaceTarget_none value hcase
          rw [hf, Option.map_some] at htarget
          rw [← hf] at htarget
          rw [targetsOf_cons htarget, if_pos rfl, if_pos rfl, ih harm.2, List.length_cons,
            List.replicate_succ]

theorem FieldAccepts.accepts {α : Type} {noneValue : Option α} {deserialize : Toml → Parsed α}
    {a b : α} (h : FieldAccepts noneValue deserialize a value b)
    (hnone : value.isNone → noneValue = none) : (deserialize value).Accepts b := by
  have hno : (if value.isNone then noneValue else none) = none := by
    split
    · next hvalue => exact hnone hvalue
    · rfl
  rcases h with h | h
  · rw [hno] at h
    cases h
  · exact h.2

theorem getD_apply (base : Option (∀ i, α i)) (config : ∀ i, α i) (i : Fin n) :
    base.getD config i = (base.map fun config => config i).getD (config i) := by
  cases base with
  | none => rfl
  | some config => rfl

section
variable {default config : ∀ i, α i} {mergeable : ∀ i, Option (α i) → Toml → Prop}
  {base : Option (∀ i, α i)}

theorem MergesFields.replaces_field
    (hm : MergesFields fields flatten default noneValue mergeable base entries)
    (hrep : ∀ i base value b, (deserialize i value).Accepts b → mergeable i base value →
      Replaces (replace i) (base.getD b) value b)
    (hv : Visited fields flatten noneValue deserialize default entries config) {i : Fin n}
    (hi : some i ≠ flatten) :
    Chain (Replaces (replace i)) (valuesOf fields entries i) (base.getD config i) (config i) := by
  have hchain := hv.assigned i hi
  have hnone := hm.not_none i
  have hgiven := hm.given i
  have hrepeated := hm.repeated i
  have hmissing := fun config h => hm.missing config h i hi
  revert hchain hnone hgiven hrepeated hmissing
  cases valuesOf fields entries i with
  | nil =>
      intro hchain hnone hgiven hrepeated hmissing
      rw [Chain.nil_iff] at hchain ⊢
      cases base with
      | none => rfl
      | some config => exact (hmissing config rfl rfl).trans hchain
  | cons value values =>
      intro hchain hnone hgiven hrepeated hmissing
      obtain ⟨b, hhead, htail⟩ := Chain.cons_iff.mp hchain
      rw [List.forall_mem_cons] at hnone
      have haccepts := hhead.accepts hnone.1
      by_cases hvalues : values = []
      · subst hvalues
        rw [Chain.nil_iff] at htail
        subst htail
        rw [getD_apply]
        exact .cons (hrep i _ value _ haccepts (hgiven value rfl)) (.nil _)
      · -- The second value is there, so each of them says what the field gets.
        have htwo : 2 ≤ (value :: values).length := by
          rw [List.length_cons]
          have hpos := List.length_pos_iff.mpr hvalues
          omega
        have hall := hrepeated htwo
        rw [List.forall_mem_cons] at hall
        refine .cons (hrep i (some _) value b haccepts (hall.1 _)) (htail.imp fun next hnext a c hstep => ?_)
        exact hrep i (some a) next c (hstep.accepts (hnone.2 next hnext)) (hall.2 next hnext a)

theorem MergesFields.replaces_flattened
    (hm : MergesFields fields flatten default noneValue mergeable base entries)
    (hrep : ∀ i base value b, (deserialize i value).Accepts b → mergeable i base value →
      Replaces (replace i) (base.getD b) value b)
    (hv : Visited fields flatten noneValue deserialize default entries config) {f : Fin n}
    (hf : flatten = some f) (hempty : ∀ a, Replaces (replace f) a (.table []) a) :
    Chain (Replaces (replace f)) (List.replicate (unusedOf fields entries).length (.table entries))
      (base.getD config f) (config f) := by
  have haccepts := hv.flattened f hf
  have hfirst := hrep f _ _ _ haccepts (hm.flattened f hf)
  have hagain := fun htwo => hrep f none _ _ haccepts (hm.again f hf htwo)
  rw [← getD_apply] at hfirst
  rcases hm.unmixed (by rw [hf]; rfl) with hnone | hall
  · rw [hnone] at hfirst ⊢
    have heq := (hempty (base.getD config f)).symm.trans hfirst
    rw [List.length_nil, List.replicate_zero, Chain.nil_iff]
    exact congrArg Prod.fst heq
  · rw [hall] at hfirst hagain ⊢
    cases entries with
    | nil =>
        have heq := (hempty (base.getD config f)).symm.trans hfirst
        rw [List.length_nil, List.replicate_zero, Chain.nil_iff]
        exact congrArg Prod.fst heq
    | cons entry rest =>
        rw [List.length_cons, List.replicate_succ]
        refine .cons hfirst (.replicate fun hpos => hagain ?_)
        rw [List.length_cons]
        omega

theorem MergesFields.replaceEntries
    (hm : MergesFields fields flatten default noneValue mergeable base entries)
    (hrep : ∀ i base value b, (deserialize i value).Accepts b → mergeable i base value →
      Replaces (replace i) (base.getD b) value b)
    (hempty : ∀ i, flatten = some i → ∀ a, Replaces (replace i) a (.table []) a)
    (hv : Visited fields flatten noneValue deserialize default entries config) :
    replaceEntries fields flatten replace (.table entries) entries (base.getD config) =
      (config, .ok ()) := by
  rw [replaceEntries_iff]
  refine ⟨fun entry hentry => ?_, fun i => ?_⟩
  · cases hcase : replaceArm fields flatten entry.1 with
    | some i =>
        rw [replaceTarget_some _ hcase]
        rfl
    | none =>
        rw [replaceTarget_none _ hcase]
        cases hflatten : flatten with
        | some f => rfl
        | none =>
            have hmem : entry ∈ unusedOf fields entries := by
              refine List.mem_filter.mpr ⟨hentry, decide_eq_true ?_⟩
              rw [← hm.arm entry hentry, hcase]
            rw [hv.used hflatten] at hmem
            exact absurd hmem List.not_mem_nil
  · by_cases hi : some i = flatten
    · rw [targetsOf_flatten hi.symm hm.arm]
      exact hm.replaces_flattened hrep hv hi.symm (hempty i hi.symm)
    · rw [targetsOf_field hi hm.arm]
      exact hm.replaces_field hrep hv hi

end
end

theorem deserializeEntries_keys {α : Type} {errors : TomlErrors} {deserialize : Toml → Parsed α}
    {entries : List (String × Toml)} {m m' : String → Option α}
    (h : (deserializeEntries errors deserialize entries m).result = .ok m') (key : String) :
    (m' key).isSome ↔ (m key).isSome ∨ key ∈ entries.map Prod.fst := by
  induction entries generalizing m with
  | nil =>
      cases h
      rw [List.map_nil, or_iff_left List.not_mem_nil]
  | cons entry rest ih =>
      obtain ⟨key', value⟩ := entry
      rw [deserializeEntries] at h
      cases hresult : (deserialize value).result with
      | error error =>
          simp only [hresult] at h
          cases h
      | ok a =>
          simp only [hresult] at h
          rw [ih h, List.map_cons, List.mem_cons]
          by_cases hkey : key = key'
          · subst hkey
            rw [Function.update_self]
            exact iff_of_true (.inl rfl) (.inr (.inl rfl))
          · rw [Function.update_of_ne hkey, or_iff_right hkey]

namespace ConfigType
variable {α : Type} {errors : TomlErrors}

theorem option_accepts {inner : ConfigType α} {value : Toml} {a : Option α}
    (h : (option inner).Accepts errors value a) : ∃ b, a = some b ∧ inner.Accepts errors value b := by
  obtain ⟨hresult, hlog⟩ := h
  simp only [deserialize] at hresult hlog
  cases hinner : (inner.deserialize errors value).result with
  | error error =>
      rw [hinner] at hresult
      cases hresult
  | ok b =>
      rw [hinner] at hresult
      cases hresult
      exact ⟨b, rfl, hinner, hlog⟩

theorem map_accepts {inner : ConfigType α} {value : Toml} {m : String → Option α}
    (h : (map inner).Accepts errors value m) (key : String) : (m key).isSome ↔ key ∈ value.keys := by
  have hresult := h.1
  cases value with
  | table entries =>
      rw [deserializeEntries_keys hresult key, or_iff_right (by exact Bool.false_ne_true)]
      rfl
  | _ => cases hresult

theorem IsStruct.deserialize {c : ConfigType α} (h : c.IsStruct) (entries : List (String × Toml)) :
    ∃ a, (c.deserialize errors (.table entries)).result = .ok a := by
  cases c with
  | struct fields flatten default types =>
      cases flatten with
      | none => exact ⟨_, rfl⟩
      | some f => exact ⟨_, rfl⟩
  | _ => cases h

theorem IsStruct.replace {c : ConfigType α} (h : c.IsStruct) (a : α) :
    c.replace errors a (.table []) = (a, .ok ()) := by
  cases c with
  | struct fields flatten default types => rfl
  | _ => cases h

theorem struct_accepts {n : Nat} {α : Fin n → Type} {fields : Fin n → ConfigField}
    {flatten : Option (Fin n)} {default : ∀ i, α i} {types : ∀ i, ConfigType (α i)}
    (hstruct : ∀ i, flatten = some i → (types i).IsStruct) {value : Toml} {config : ∀ i, α i}
    (h : (struct fields flatten default types).Accepts errors value config) :
    ∃ entries, value = .table entries ∧ Visited fields flatten (fun i => (types i).noneValue)
      (fun i => (types i).deserialize errors) default entries config := by
  cases value with
  | table entries =>
      refine ⟨entries, rfl, visitMap_accepts (fun i hi entries => ?_) h⟩
      exact (hstruct i hi).deserialize entries
  | _ => cases h.1

theorem replaceSimple_ok {parsed : Parsed α} {a b : α} (h : parsed.result = .ok b) :
    replaceSimple a parsed = (b, .ok ()) := by
  rw [replaceSimple, h]

theorem Mergeable.replace {c : ConfigType α} (hc : c.FlattensStructs) {base : Option α} {value : Toml}
    {a : α} (ha : c.Accepts errors value a) (hm : c.Mergeable base value) :
    Replaces (c.replace errors) (base.getD a) value a := by
  induction c generalizing value with
  | leaf default deserialize => exact replaceSimple_ok ha.1
  | option inner ih =>
      obtain ⟨b, rfl, hb⟩ := option_accepts ha
      have hsome : ∀ base : Option _, inner.Mergeable base value →
          Replaces ((option inner).replace errors) (some (base.getD b)) value (some b) := by
        intro base hbase
        have hinner := ih hc hb hbase
        rw [Replaces] at hinner
        rw [Replaces, ConfigType.replace, hinner]
      cases base with
      | none => exact hsome none hm
      | some base =>
          cases base with
          | none => exact replaceSimple_ok ha.1
          | some base => exact hsome (some base) hm
  | map inner ih =>
      have hkept : ∀ key, (a key).or (base.getD a key) = a key := by
        intro key
        cases base with
        | none => exact Option.or_self
        | some m =>
            cases hkey : a key with
            | some b => rfl
            | none =>
                refine Option.eq_none_iff_forall_ne_some.mpr fun b hb => ?_
                have hgiven := (map_accepts ha key).mpr (hm m rfl key (Option.isSome_of_eq_some hb))
                rw [hkey] at hgiven
                cases hgiven
      rw [Replaces, ConfigType.replace, ha.1]
      exact Prod.ext (funext hkept) rfl
  | struct fields flatten default types ih =>
      obtain ⟨entries, rfl, hv⟩ := struct_accepts hc.1 ha
      refine MergesFields.replaceEntries hm (fun i base value b hb hbase => ?_) (fun i hi a => ?_) hv
      · exact ih i (hc.2 i) hb hbase
      · exact (hc.1 i hi).replace a

end ConfigType
end Velacritty

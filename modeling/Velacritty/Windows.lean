import Velacritty.OrderedMap
import Velacritty.Overrides
import Velacritty.SchedulerRuns

/-! The windows of the event processor: their configs and their timers. What a window does with an
event is only the timers that it schedules and cancels. -/
namespace Velacritty
open Fallible

structure Processor.WindowContext (C V : Type) where
  config : C
  windowConfig : ParsedOptions V
  /-- Keep the window open when its terminal exits. -/
  hold : Bool

namespace Processor.WindowContext
variable {C V E : Type}

def updateConfig (replace : C → V → C × Except E Unit) (w : WindowContext C V) (newConfig : C) :
    Option (WindowContext C V) := do
  let (windowConfig, config) ← w.windowConfig.overrideConfigRc replace newConfig
  some { w with config, windowConfig }

def resetWindowConfig (replace : C → V → C × Except E Unit) (w : WindowContext C V) (config : C) :
    Option (WindowContext C V) :=
  updateConfig replace { w with windowConfig := ⟨[]⟩ } config

def addWindowConfig (replace : C → V → C × Except E Unit) (w : WindowContext C V) (config : C)
    (options : ParsedOptions V) : Option (WindowContext C V) :=
  updateConfig replace
    { w with windowConfig := ⟨w.windowConfig.configOptions ++ options.configOptions⟩ } config

end Processor.WindowContext

/-- What a window does to the scheduler, always with its own id. -/
inductive Processor.TimerCall (T : Type) where
  | schedule (now : Nat) (event : T) (interval : Nat) (repeats : Bool) (topic : Topic)
  | unschedule (topic : Topic)

def Processor.TimerCall.run {W T : Type} [DecidableEq W] (windowId : W) (s : Scheduler W T) :
    Processor.TimerCall T → Scheduler W T
  | schedule now event interval repeats topic => s.schedule now event interval repeats ⟨topic, windowId⟩
  | unschedule topic => (s.unschedule ⟨topic, windowId⟩).2

structure Processor (W T C V : Type) where
  config : C
  cliOptions : Options C V
  daemon : Bool
  initialWindowOptions : Option (List String)
  globalIpcOptions : ParsedOptions V
  windows : List (W × Processor.WindowContext C V)
  scheduler : Scheduler W T
  /-- There was a window, with the graphics config of all others. -/
  glConfig : Bool
  /-- The event loop was told to exit. -/
  exits : Bool

/-- What the processor is called with. A window that is to be created gets its id, and says whether
it is held, unless it fails. -/
inductive ProcessorEvent (W T C V : Type) where
  | init (created : Option (W × Bool))
  | ipcConfig (windowId : Option W) (options : List String) (reset : Bool)
  | configReload (loaded : Option C)
  | createWindow (options : List String) (created : Option (W × Bool))
  | exit (windowId : W)
  | window (windowId : W) (calls : List (Processor.TimerCall T))
  | allWindows (calls : W → List (Processor.TimerCall T))
  | aboutToWait (calls : W → List (Processor.TimerCall T)) (clock : Nat → Nat) (fuel : Nat)

def ProcessorEvent.target {W T C V : Type} : ProcessorEvent W T C V → Option W
  | ipcConfig windowId _ _ => windowId
  | exit windowId => some windowId
  | window windowId _ => some windowId
  | _ => none

namespace Processor
variable {W T C V E : Type} [DecidableEq W]

def new (config : C) (cliOptions : Options C V) (daemon : Bool) (options : List String) :
    Processor W T C V where
  config
  cliOptions
  daemon
  initialWindowOptions := some options
  globalIpcOptions := ⟨[]⟩
  windows := []
  scheduler := .new
  glConfig := false
  exits := false

/-- Create initial window and load GL platform; without it the event loop exits. -/
def createInitialWindow (p : Processor W T C V) (created : Option (W × Bool)) : Processor W T C V :=
  match created with
  | some (id, hold) =>
      { p with
        glConfig := true
        windows := OrderedMap.insert id { config := p.config, windowConfig := ⟨[]⟩, hold } p.windows }
  | none => { p with exits := true }

def createWindow (replace : C → V → C × Except E Unit) (parse : String → Option V)
    (p : Processor W T C V) (options : List String) (created : Option (W × Bool)) :
    Option (Processor W T C V) := do
  let configOverrides : ParsedOptions V :=
    ⟨(ParsedOptions.fromOptions parse options).configOptions ++ p.globalIpcOptions.configOptions⟩
  let (windowConfig, config) ← configOverrides.overrideConfigRc replace p.config
  match created with
  | some (id, hold) =>
      some { p with windows := OrderedMap.insert id { config, windowConfig, hold } p.windows }
  | none => some p

def dispatch (p : Processor W T C V) (calls : W → List (TimerCall T)) : Processor W T C V :=
  { p with scheduler := p.windows.foldl (fun s x => (calls x.1).foldl (TimerCall.run x.1) s) p.scheduler }

def step (replace : C → V → C × Except E Unit) (parse : String → Option V) (p : Processor W T C V) :
    ProcessorEvent W T C V → Option (Processor W T C V)
  | .init created =>
      if p.daemon then some p
      else
        match p.initialWindowOptions with
        | some _ => some ({ p with initialWindowOptions := none }.createInitialWindow created)
        | none => some p
  | .ipcConfig windowId options reset => do
      let options := ParsedOptions.fromOptions parse options
      let windows ← p.windows.mapM fun (id, w) =>
        if windowId = none ∨ windowId = some id then
          (if reset then w.resetWindowConfig replace p.config
            else w.addWindowConfig replace p.config options).map (id, ·)
        else some (id, w)
      let globalIpcOptions :=
        if windowId.isNone then
          if reset then ⟨[]⟩ else ⟨p.globalIpcOptions.configOptions ++ options.configOptions⟩
        else p.globalIpcOptions
      some { p with windows, globalIpcOptions }
  | .configReload loaded => do
      let (cliOptions, loaded) ← p.cliOptions.reload replace loaded
      match loaded with
      | some config => do
          let windows ← p.windows.mapM fun (id, w) => (w.updateConfig replace config).map (id, ·)
          some { p with config, cliOptions, windows }
      | none => some { p with cliOptions }
  | .createWindow options created =>
      if !p.glConfig then some (p.createInitialWindow created)
      else p.createWindow replace parse options created
  | .exit windowId =>
      match p.windows.lookup windowId with
      | some w =>
          if w.hold then some p
          else
            let windows := OrderedMap.erase windowId p.windows
            some { p with
              windows
              scheduler := p.scheduler.unscheduleWindow windowId
              exits := p.exits || windows.isEmpty && !p.daemon }
      | none => some p
  | .window windowId calls =>
      if (p.windows.lookup windowId).isSome then
        some { p with scheduler := calls.foldl (TimerCall.run windowId) p.scheduler }
      else some p
  | .allWindows calls => some (p.dispatch calls)
  | .aboutToWait calls clock fuel => do
      let p := p.dispatch calls
      let (scheduler, _, _) ← p.scheduler.update clock fuel
      some { p with scheduler }

end Processor

/-! ### Windows that are updated together -/

theorem forall₂_of_mapM {α β : Type} {f : α → Option β} {l : List α} {l' : List β}
    (h : l.mapM f = some l') : List.Forall₂ (fun a b => f a = some b) l l' := by
  induction l generalizing l' with
  | nil =>
      rw [List.mapM_nil] at h
      obtain rfl := Option.some.inj h
      exact .nil
  | cons a l ih =>
      simp only [List.mapM_cons, Option.bind_eq_bind, Option.bind_eq_some_iff, Option.pure_def,
        Option.some.injEq] at h
      obtain ⟨b, hb, bs, hbs, rfl⟩ := h
      exact .cons hb (ih hbs)

theorem exists_of_forall₂ {α β : Type} {R : α → β → Prop} {l : List α} {l' : List β}
    (h : List.Forall₂ R l l') {b : β} (hb : b ∈ l') : ∃ a ∈ l, R a b := by
  induction h with
  | nil => cases hb
  | cons hab _ ih =>
      rcases List.mem_cons.mp hb with rfl | hb
      · exact ⟨_, List.mem_cons_self, hab⟩
      · obtain ⟨a, ha, hab⟩ := ih hb
        exact ⟨a, List.mem_cons_of_mem _ ha, hab⟩

namespace Processor.TimerCall
variable {W T : Type} [DecidableEq W] {windowId : W} {s : Scheduler W T} {t : Timer W T}

theorem mem_run {call : TimerCall T} (h : t ∈ (call.run windowId s).timers) :
    t ∈ s.timers ∨ t.id.windowId = windowId := by
  cases call with
  | schedule now event interval repeats topic =>
      rw [run, Scheduler.schedule_timers] at h
      rcases SortedQueue.mem_insert.mp h with rfl | h
      · exact .inr rfl
      · exact .inl h
  | unschedule topic => exact .inl ((Scheduler.unschedule_spec s _).1.subset h)

theorem mem_foldl_run {calls : List (TimerCall T)} (h : t ∈ (calls.foldl (run windowId) s).timers) :
    t ∈ s.timers ∨ t.id.windowId = windowId := by
  induction calls generalizing s with
  | nil => exact .inl h
  | cons call calls ih =>
      rcases ih h with h | h
      · exact mem_run h
      · exact .inr h

end Processor.TimerCall

theorem Drawn.perm {α : Type} {p : α → Bool} {l kept : List α} (h : Drawn p l kept) :
    kept.Perm (l.filter p) := by
  induction h with
  | nil => exact .nil
  | keep hx _ ih =>
      rw [List.filter_cons_of_pos hx]
      exact ih.cons _
  | dropLast hx => rw [List.filter_cons_of_neg (by simp [hx]), List.filter_nil]
  | drop hx _ ih =>
      rw [List.filter_cons_of_neg (by simp [hx])]
      exact ih.trans (filter_cons_perm _ _)

def Processor.WindowContext.Derived {C V E : Type} (replace : C → V → C × Except E Unit) (config : C)
    (w : Processor.WindowContext C V) : Prop :=
  ∃ options : ParsedOptions V, options.overrideConfigRc replace config = some (w.windowConfig, w.config)

theorem overrideConfigRc_judged {C V E : Type} {replace : C → V → C × Except E Unit} {accepts : V → Bool}
    (h : ParsedOptions.Judges replace accepts) {options kept : ParsedOptions V} {config config' : C}
    (hoverride : options.overrideConfigRc replace config = some (kept, config')) :
    kept.configOptions.Perm (options.accepted accepts) ∧
      config' = ParsedOptions.applyAll replace config kept.configOptions := by
  obtain ⟨r, hr, hdrawn, happlied⟩ := ParsedOptions.overrideConfig_drawn h options config
  rw [ParsedOptions.overrideConfigRc_eq, hr] at hoverride
  obtain rfl := Option.some.inj hoverride
  exact ⟨hdrawn.perm, happlied⟩

def Processor.WindowContext.Applied {C V E : Type} (replace : C → V → C × Except E Unit) (accepts : V → Bool)
    (config : C) (w : Processor.WindowContext C V) : Prop :=
  w.config = ParsedOptions.applyAll replace config w.windowConfig.configOptions ∧
    ∀ option ∈ w.windowConfig.configOptions, accepts option.2 = true

theorem Processor.WindowContext.Derived.applied {C V E : Type} {replace : C → V → C × Except E Unit}
    {accepts : V → Bool} {w : Processor.WindowContext C V} {config : C} (hw : w.Derived replace config)
    (h : ParsedOptions.Judges replace accepts) : w.Applied replace accepts config := by
  obtain ⟨options, hoptions⟩ := hw
  obtain ⟨hperm, happlied⟩ := overrideConfigRc_judged h hoptions
  refine ⟨happlied, fun option hmem => ?_⟩
  exact (List.mem_filter.mp (hperm.subset hmem)).2

namespace Processor
variable {W T C V E : Type} [DecidableEq W] {replace : C → V → C × Except E Unit}
  {parse : String → Option V} {p p' : Processor W T C V}

/-- What holds between events: every window shows the latest config, as its options override it; the
timers are those of open windows; and without any window the event loop exits, or is a daemon's. -/
structure Consistent (replace : C → V → C × Except E Unit) (p : Processor W T C V) : Prop where
  configs : ∀ x ∈ p.windows, x.2.Derived replace p.config
  timers : ∀ t ∈ p.scheduler.timers, t.id.windowId ∈ p.windows.map Prod.fst
  runs : p.windows = [] → p.exits = true ∨ p.daemon = true ∨ p.initialWindowOptions.isSome

theorem Consistent.insert (h : p.Consistent replace) {id : W} {w : WindowContext C V}
    (hw : w.Derived replace p.config) {glConfig : Bool} {options : Option (List String)} :
    ({ p with
      windows := OrderedMap.insert id w p.windows, glConfig,
      initialWindowOptions := options } : Processor W T C V).Consistent replace where
  configs x hx := by
    rcases OrderedMap.mem_insert hx with rfl | hx
    · exact hw
    · exact h.configs x hx
  timers t ht := OrderedMap.mem_keys_insert.mpr (.inr (h.timers t ht))
  runs hnone := by
    have hmem : id ∈ (OrderedMap.insert id w p.windows).map Prod.fst :=
      OrderedMap.mem_keys_insert.mpr (.inl rfl)
    have hempty : OrderedMap.insert id w p.windows = [] := hnone
    rw [hempty] at hmem
    cases hmem

theorem Consistent.createInitialWindow (h : p.Consistent replace) (created : Option (W × Bool))
    {options : Option (List String)} :
    (({ p with initialWindowOptions := options } : Processor W T C V).createInitialWindow
      created).Consistent replace := by
  cases created with
  | none => exact ⟨h.configs, h.timers, fun _ => .inl rfl⟩
  | some created => exact h.insert ⟨⟨[]⟩, rfl⟩

omit [DecidableEq W] in
theorem keys_of_forall₂ {P : W × WindowContext C V → W × WindowContext C V → Prop}
    {windows windows' : List (W × WindowContext C V)}
    (h : List.Forall₂ (fun x y => y.1 = x.1 ∧ P x y) windows windows') :
    windows'.map Prod.fst = windows.map Prod.fst := by
  induction h with
  | nil => rfl
  | cons hxy _ ih => rw [List.map_cons, List.map_cons, hxy.1, ih]

omit [DecidableEq W] in
theorem Consistent.updated (h : p.Consistent replace) {config : C} {windows : List (W × WindowContext C V)}
    (hwindows : List.Forall₂ (fun x y => y.1 = x.1 ∧
      (x.2.Derived replace p.config → y.2.Derived replace config)) p.windows windows)
    {cliOptions : Options C V} {globalIpcOptions : ParsedOptions V} :
    ({ p with config, windows, cliOptions, globalIpcOptions } : Processor W T C V).Consistent replace where
  configs y hy := by
    obtain ⟨x, hx, hxy⟩ := exists_of_forall₂ hwindows hy
    exact hxy.2 (h.configs x hx)
  timers t ht := by
    rw [keys_of_forall₂ hwindows]
    exact h.timers t ht
  runs hnone := by
    have hkeys := keys_of_forall₂ hwindows
    rw [show windows = [] from hnone, List.map_nil] at hkeys
    exact h.runs (List.map_eq_nil_iff.mp hkeys.symm)

theorem mem_dispatch {calls : W → List (TimerCall T)} {t : Timer W T}
    (h : t ∈ (p.dispatch calls).scheduler.timers) :
    t ∈ p.scheduler.timers ∨ t.id.windowId ∈ p.windows.map Prod.fst := by
  have hfold (windows : List (W × WindowContext C V)) (s : Scheduler W T)
      (ht : t ∈ (windows.foldl (fun s x => (calls x.1).foldl (TimerCall.run x.1) s) s).timers) :
      t ∈ s.timers ∨ t.id.windowId ∈ windows.map Prod.fst := by
    induction windows generalizing s with
    | nil => exact .inl ht
    | cons x windows ih =>
        rcases ih _ ht with ht | ht
        · exact (TimerCall.mem_foldl_run ht).imp id fun hid => List.mem_cons.mpr (.inl hid)
        · exact .inr (List.mem_cons_of_mem _ ht)
  exact hfold p.windows p.scheduler h

theorem Consistent.dispatch (h : p.Consistent replace) (calls : W → List (TimerCall T)) :
    (p.dispatch calls).Consistent replace :=
  ⟨h.configs, fun t ht => (mem_dispatch ht).elim (h.timers t) id, h.runs⟩

theorem Consistent.exit (h : p.Consistent replace) (windowId : W) :
    ({ p with
      windows := OrderedMap.erase windowId p.windows
      scheduler := p.scheduler.unscheduleWindow windowId
      exits := p.exits || (OrderedMap.erase windowId p.windows).isEmpty && !p.daemon } :
        Processor W T C V).Consistent replace where
  configs x hx := h.configs x (List.mem_of_mem_filter hx)
  timers t ht := by
    obtain ⟨ht, hne⟩ := List.mem_filter.mp ht
    obtain ⟨x, hx, hid⟩ := List.mem_map.mp (h.timers t ht)
    have hkept : x.1 ≠ windowId := hid ▸ of_decide_eq_true hne
    exact List.mem_map.mpr ⟨x, List.mem_filter.mpr ⟨hx, decide_eq_true hkept⟩, hid⟩
  runs hnone := by
    have hempty : OrderedMap.erase windowId p.windows = [] := hnone
    by_cases hdaemon : p.daemon = true
    · exact .inr (.inl hdaemon)
    · left
      simp only [hempty, Bool.eq_false_iff.mpr hdaemon, List.isEmpty_nil, Bool.not_false, Bool.and_true,
        Bool.or_true]

def Accepted (replace : C → V → C × Except E Unit) (value : V) : Prop :=
  ∀ config, (replace config value).2.isOk = true

/-- Every window keeps the options that were set for all of them, if these are always accepted. -/
structure Shared (replace : C → V → C × Except E Unit) (p : Processor W T C V) : Prop where
  options : ∀ x ∈ p.windows, ∀ option ∈ p.globalIpcOptions.configOptions, Accepted replace option.2 →
    option ∈ x.2.windowConfig.configOptions
  started : p.daemon = false ∧ p.initialWindowOptions = none ∧ p.glConfig = true

omit [DecidableEq W] in
theorem Shared.updated (h : p.Shared replace) {config : C}
    {windows : List (W × WindowContext C V)} {cliOptions : Options C V} {globalIpcOptions : ParsedOptions V}
    (hwindows : ∀ y ∈ windows, ∃ x ∈ p.windows,
      (∀ option ∈ p.globalIpcOptions.configOptions, Accepted replace option.2 →
        option ∈ x.2.windowConfig.configOptions) →
          ∀ option ∈ globalIpcOptions.configOptions, Accepted replace option.2 →
            option ∈ y.2.windowConfig.configOptions) :
    ({ p with config, windows, cliOptions, globalIpcOptions } : Processor W T C V).Shared replace where
  options y hy := by
    obtain ⟨x, hx, hxy⟩ := hwindows y hy
    exact hxy (h.options x hx)
  started := h.started

theorem mem_overrideConfigRc {options kept : ParsedOptions V} {config config' : C}
    (hoverride : options.overrideConfigRc replace config = some (kept, config')) {option : String × V}
    (haccepted : Accepted replace option.2) (hmem : option ∈ options.configOptions) :
    option ∈ kept.configOptions := by
  obtain ⟨order, hperm, htried⟩ := (ParsedOptions.overrideConfigRc_tried replace options config).of_eq hoverride
  exact htried.mem haccepted (hperm.symm.subset hmem)

theorem mem_updateConfig {w w' : WindowContext C V} {config : C} (hw : w.updateConfig replace config = some w')
    {option : String × V} (haccepted : Accepted replace option.2)
    (hmem : option ∈ w.windowConfig.configOptions) : option ∈ w'.windowConfig.configOptions := by
  simp only [WindowContext.updateConfig, Option.bind_eq_bind, Option.bind_eq_some_iff,
    Option.some.injEq] at hw
  obtain ⟨⟨windowConfig, newConfig⟩, hoverride, rfl⟩ := hw
  exact mem_overrideConfigRc hoverride haccepted hmem

/-- Options that are set for one window are set after those that it has; those that are reset for all
windows are no longer asked for. -/
theorem Shared.ipcConfig (hp : p.Shared replace) {windowId : Option W} {options : List String} {reset : Bool}
    (halone : ∀ id, windowId = some id → reset ≠ true)
    (hstep : p.step replace parse (.ipcConfig windowId options reset) = some p') : p'.Shared replace := by
  simp only [step, Option.bind_eq_bind, Option.bind_eq_some_iff, Option.some.injEq] at hstep
  obtain ⟨windows, hwindows, rfl⟩ := hstep
  refine hp.updated fun y hy => ?_
  obtain ⟨⟨id, w⟩, hx, hxy⟩ := exists_of_forall₂ (forall₂_of_mapM hwindows) hy
  refine ⟨(id, w), hx, fun hshared option hoption haccepted => ?_⟩
  cases windowId with
  | none =>
      cases reset with
      | true => cases hoption
      | false =>
          simp only [true_or, if_true, Bool.false_eq_true, if_false, Option.map_eq_some_iff] at hxy
          obtain ⟨w', hw', rfl⟩ := hxy
          refine mem_updateConfig hw' haccepted ?_
          simp only [Option.isNone_none, if_true, Bool.false_eq_true, if_false] at hoption
          exact List.mem_append.mpr
            ((List.mem_append.mp hoption).imp_left fun hglobal => hshared option hglobal haccepted)
  | some windowId =>
      cases reset with
      | true => exact absurd rfl (halone windowId rfl)
      | false =>
          have hkept := hshared option hoption haccepted
          split at hxy
          · obtain ⟨w', hw', rfl⟩ := Option.map_eq_some_iff.mp hxy
            exact mem_updateConfig hw' haccepted (List.mem_append_left _ hkept)
          · obtain rfl := Option.some.inj hxy
            exact hkept

end Processor
end Velacritty

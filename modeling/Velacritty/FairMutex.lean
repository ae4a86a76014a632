import Velacritty.Fallible
import Mathlib.Algebra.Order.BigOperators.Group.Finset
import Mathlib.Data.Fintype.BigOperators
import Mathlib.Logic.Function.Basic

/-! The fair mutex around the terminal, and the threads that go through it: those that `lock` it,
and the PTY reader, which leases it for the whole of `pty_read`. -/
namespace Velacritty
open Fallible

/-- A lock, by the thread that has its guard. -/
structure Mutex (T : Type) where
  holder : Option T
  deriving DecidableEq, Repr

/-- Blocks while the guard is taken. -/
def Mutex.lock {T : Type} (m : Mutex T) (t : T) : Option (Mutex T) :=
  if m.holder.isSome then none else some ⟨some t⟩

def Mutex.unlock {T : Type} (_ : Mutex T) : Mutex T := ⟨none⟩

theorem Mutex.lock_eq {T : Type} {m m' : Mutex T} {t : T} (h : m.lock t = some m') :
    m.holder = none ∧ m'.holder = some t := by
  unfold Mutex.lock at h
  split at h
  · cases h
  · rename_i hfree
    cases h
    exact ⟨by simpa using hfree, rfl⟩

theorem Mutex.lock_free {T : Type} {m : Mutex T} (h : m.holder = none) (t : T) :
    m.lock t = some ⟨some t⟩ := by
  simp [Mutex.lock, h]

/-- Where a thread stands: in `lock`, up to `locked`, or in `pty_read`, from `leaseNext` on. -/
inductive Phase where
  | idle
  | lockNext
  | lockData
  | dropNext
  | locked
  | leaseNext
  | leased
  | leasedData
  | reading
  | leaving
  deriving DecidableEq, Repr

def Phase.holdsNext : Phase → Bool
  | .lockData | .dropNext | .leased | .leasedData | .reading | .leaving => true
  | _ => false

def Phase.holdsData : Phase → Bool
  | .dropNext | .locked | .reading => true
  | _ => false

/-- The thread has its turn and may still take the data. -/
def Phase.hasTurn : Phase → Bool
  | .lockData | .leased | .leasedData => true
  | _ => false

/-- The steps that can be left until the thread is done. -/
def Phase.left : Phase → Nat
  | .idle => 0
  | .lockNext => 4
  | .lockData => 3
  | .dropNext => 2
  | .locked => 1
  | .leaseNext => 5
  | .leased => 4
  | .leasedData => 3
  | .reading => 2
  | .leaving => 1

/-- The two locks, the threads, and two logs: the threads that got `next`, and those that got the
data, oldest first. -/
structure FairMutex (T : Type) where
  data : Mutex T
  next : Mutex T
  phase : T → Phase
  turns : List T
  entered : List T

namespace FairMutex
variable {T : Type} [DecidableEq T]

def new : FairMutex T := ⟨⟨none⟩, ⟨none⟩, fun _ => .idle, [], []⟩

inductive Act where
  | lock
  | lease
  | acquireNext
  | acquireData
  | tryLockUnfair
  | lockUnfair
  | releaseData
  | releaseNext
  deriving DecidableEq, Repr

def goto (w : FairMutex T) (t : T) (p : Phase) : FairMutex T :=
  { w with phase := Function.update w.phase t p }

def takeNext (w : FairMutex T) (t : T) (p : Phase) : Option (FairMutex T) :=
  (w.next.lock t).map fun m => { w.goto t p with next := m, turns := w.turns ++ [t] }

def takeData (w : FairMutex T) (t : T) (p : Phase) : Option (FairMutex T) :=
  (w.data.lock t).map fun m => { w.goto t p with data := m, entered := w.entered ++ [t] }

/-- One step of one thread; `none` while it is blocked, or when its code has no such step. -/
def step (w : FairMutex T) : T × Act → Option (FairMutex T)
  | (t, act) =>
    match act, w.phase t with
    | .lock, .idle => some (w.goto t .lockNext)
    | .acquireNext, .lockNext => w.takeNext t .lockData
    | .acquireData, .lockData => w.takeData t .dropNext
    | .releaseNext, .dropNext => some { w.goto t .locked with next := w.next.unlock }
    | .releaseData, .locked => some { w.goto t .idle with data := w.data.unlock }
    | .lease, .idle => some (w.goto t .leaseNext)
    | .acquireNext, .leaseNext => w.takeNext t .leased
    | .tryLockUnfair, .leased => some ((w.takeData t .reading).getD w)
    | .lockUnfair, .leased => some (w.goto t .leasedData)
    | .acquireData, .leasedData => w.takeData t .reading
    -- the guard of the terminal is dropped before the lease, which was bound first
    | .releaseData, .reading => some { w.goto t .leaving with data := w.data.unlock }
    | .releaseNext, .leased | .releaseNext, .leaving =>
        some { w.goto t .idle with next := w.next.unlock }
    | _, _ => none

/-- Any thread may take any step at any time. -/
def Any (_ : FairMutex T) (_ : T × Act) : Prop := True

/-! ### What a step does -/

/-- The ways in which a step changes the locks. -/
inductive Effect (w w' : FairMutex T) (t : T) (p : Phase) : Prop
  | moves (hn : w'.next = w.next) (hd : w'.data = w.data) (ht : w'.turns = w.turns)
      (he : w'.entered = w.entered) (hpn : p.holdsNext = (w.phase t).holdsNext)
      (hpd : p.holdsData = (w.phase t).holdsData) (hpt : p.hasTurn = (w.phase t).hasTurn)
  | takesNext (hfree : w.next.holder = none) (hn : w'.next.holder = some t) (hd : w'.data = w.data)
      (ht : w'.turns = w.turns ++ [t]) (he : w'.entered = w.entered)
      (hpn : p.holdsNext = true) (hpd : (w.phase t).holdsData = false ∧ p.holdsData = false)
      (hpt : p.hasTurn = true)
  | takesData (hfree : w.data.holder = none) (hn : w'.next = w.next)
      (hd : w'.data.holder = some t) (ht : w'.turns = w.turns) (he : w'.entered = w.entered ++ [t])
      (hpn : (w.phase t).holdsNext = true ∧ p.holdsNext = true) (hpd : p.holdsData = true)
      (hpt : (w.phase t).hasTurn = true ∧ p.hasTurn = false)
  | dropsData (hn : w'.next = w.next) (hd : w'.data.holder = none) (ht : w'.turns = w.turns)
      (he : w'.entered = w.entered) (hpn : p.holdsNext = (w.phase t).holdsNext)
      (hpd : (w.phase t).holdsData = true ∧ p.holdsData = false) (hpt : p.hasTurn = false)
  | dropsNext (hn : w'.next.holder = none) (hd : w'.data = w.data) (ht : w'.turns = w.turns)
      (he : w'.entered = w.entered) (hpn : (w.phase t).holdsNext = true ∧ p.holdsNext = false)
      (hpd : p.holdsData = (w.phase t).holdsData) (hpt : p.hasTurn = false)

theorem takeNext_effect {w w' : FairMutex T} {t : T} {p : Phase} (h : w.takeNext t p = some w')
    (hd : (w.phase t).holdsData = false ∧ p.holdsData = false) (hp : p.holdsNext = true)
    (ht : p.hasTurn = true) : w'.phase = Function.update w.phase t p ∧ Effect w w' t p := by
  obtain ⟨m, hm, rfl⟩ := Option.map_eq_some_iff.mp h
  obtain ⟨hfree, hheld⟩ := Mutex.lock_eq hm
  exact ⟨rfl, .takesNext hfree hheld rfl rfl rfl hp hd ht⟩

theorem takeData_effect {w w' : FairMutex T} {t : T} {p : Phase} (h : w.takeData t p = some w')
    (hn : (w.phase t).holdsNext = true ∧ p.holdsNext = true) (hp : p.holdsData = true)
    (ht : (w.phase t).hasTurn = true ∧ p.hasTurn = false) :
    w'.phase = Function.update w.phase t p ∧ Effect w w' t p := by
  obtain ⟨m, hm, rfl⟩ := Option.map_eq_some_iff.mp h
  obtain ⟨hfree, hheld⟩ := Mutex.lock_eq hm
  exact ⟨rfl, .takesData hfree rfl hheld rfl rfl hn hp ht⟩

/-- A step moves its own thread only, and changes the locks in one of five ways. -/
theorem step_effect {w w' : FairMutex T} {t : T} {act : Act} (h : step w (t, act) = some w') :
    ∃ p, w'.phase = Function.update w.phase t p ∧ Effect w w' t p := by
  simp only [step] at h
  split at h
  · rename_i hp
    cases h
    exact ⟨_, rfl, .moves rfl rfl rfl rfl (by simp [hp, Phase.holdsNext])
      (by simp [hp, Phase.holdsData]) (by simp [hp, Phase.hasTurn])⟩
  · rename_i hp
    exact ⟨_, takeNext_effect h (by simp [hp, Phase.holdsData]) rfl rfl⟩
  · rename_i hp
    exact ⟨_, takeData_effect h (by simp [hp, Phase.holdsNext]) rfl (by simp [hp, Phase.hasTurn])⟩
  · rename_i hp
    cases h
    exact ⟨_, rfl, .dropsNext rfl rfl rfl rfl (by simp [hp, Phase.holdsNext])
      (by simp [hp, Phase.holdsData]) rfl⟩
  · rename_i hp
    cases h
    exact ⟨_, rfl, .dropsData rfl rfl rfl rfl (by simp [hp, Phase.holdsNext])
      (by simp [hp, Phase.holdsData]) rfl⟩
  · rename_i hp
    cases h
    exact ⟨_, rfl, .moves rfl rfl rfl rfl (by simp [hp, Phase.holdsNext])
      (by simp [hp, Phase.holdsData]) (by simp [hp, Phase.hasTurn])⟩
  · rename_i hp
    exact ⟨_, takeNext_effect h (by simp [hp, Phase.holdsData]) rfl rfl⟩
  · rename_i hp
    cases h
    cases htake : w.takeData t .reading with
    | none =>
        refine ⟨.leased, ?_, .moves rfl rfl rfl rfl (by simp [hp]) (by simp [hp]) (by simp [hp])⟩
        exact (Function.update_eq_self_iff.mpr hp.symm).symm
    | some w' =>
        exact ⟨_, takeData_effect htake (by simp [hp, Phase.holdsNext]) rfl
          (by simp [hp, Phase.hasTurn])⟩
  · rename_i hp
    cases h
    exact ⟨_, rfl, .moves rfl rfl rfl rfl (by simp [hp, Phase.holdsNext])
      (by simp [hp, Phase.holdsData]) (by simp [hp, Phase.hasTurn])⟩
  · rename_i hp
    exact ⟨_, takeData_effect h (by simp [hp, Phase.holdsNext]) rfl (by simp [hp, Phase.hasTurn])⟩
  · rename_i hp
    cases h
    exact ⟨_, rfl, .dropsData rfl rfl rfl rfl (by simp [hp, Phase.holdsNext])
      (by simp [hp, Phase.holdsData]) rfl⟩
  · rename_i hp
    cases h
    exact ⟨_, rfl, .dropsNext rfl rfl rfl rfl (by simp [hp, Phase.holdsNext])
      (by simp [hp, Phase.holdsData]) rfl⟩
  · rename_i hp
    cases h
    exact ⟨_, rfl, .dropsNext rfl rfl rfl rfl (by simp [hp, Phase.holdsNext])
      (by simp [hp, Phase.holdsData]) rfl⟩
  · cases h

/-! ### Mutual exclusion -/

/-- Each lock is held by the thread whose code has its guard. -/
structure Agrees (w : FairMutex T) : Prop where
  next : ∀ t, w.next.holder = some t ↔ (w.phase t).holdsNext = true
  data : ∀ t, w.data.holder = some t ↔ (w.phase t).holdsData = true

omit [DecidableEq T] in
theorem Agrees.start : Agrees (new : FairMutex T) :=
  ⟨fun t => by simp [FairMutex.new, Phase.holdsNext],
    fun t => by simp [FairMutex.new, Phase.holdsData]⟩

/-- A holder that no step touches stays the one its threads' code says. -/
theorem holder_update {f : Phase → Bool} {o o' : Option T} {phase : T → Phase} {t : T} {p : Phase}
    (h : ∀ u, o = some u ↔ f (phase u) = true)
    (hchange : (o' = o ∧ f p = f (phase t)) ∨ (o = none ∧ o' = some t ∧ f p = true) ∨
      (o' = none ∧ f (phase t) = true ∧ f p = false)) (u : T) :
    o' = some u ↔ f (Function.update phase t p u) = true := by
  by_cases hut : u = t
  · subst hut
    rw [Function.update_self]
    rcases hchange with ⟨rfl, hp⟩ | ⟨_, rfl, hp⟩ | ⟨rfl, _, hp⟩
    · rw [hp]
      exact h u
    · simp [hp]
    · simp [hp]
  · rw [Function.update_of_ne hut]
    rcases hchange with ⟨rfl, _⟩ | ⟨hfree, rfl, _⟩ | ⟨rfl, hheld, _⟩
    · exact h u
    · rw [← h u, hfree]
      simpa using fun hu => hut hu.symm
    · have ht := (h t).mpr hheld
      rw [← h u, ht]
      simpa using fun hu => hut hu.symm

theorem Agrees.step {w w' : FairMutex T} {t : T} {act : Act} (h : Agrees w)
    (hs : FairMutex.step w (t, act) = some w') : Agrees w' := by
  obtain ⟨p, hphase, heff⟩ := step_effect hs
  refine ⟨fun u => ?_, fun u => ?_⟩
  · rw [hphase]
    refine holder_update h.next ?_ u
    cases heff with
    | moves hn hd ht he hpn hpd hpt => exact .inl ⟨by rw [hn], hpn⟩
    | takesNext hfree hn hd ht he hpn hpd hpt => exact .inr (.inl ⟨hfree, hn, hpn⟩)
    | takesData hfree hn hd ht he hpn hpd hpt => exact .inl ⟨by rw [hn], by rw [hpn.1, hpn.2]⟩
    | dropsData hn hd ht he hpn hpd hpt => exact .inl ⟨by rw [hn], hpn⟩
    | dropsNext hn hd ht he hpn hpd hpt => exact .inr (.inr ⟨hn, hpn⟩)
  · rw [hphase]
    refine holder_update h.data ?_ u
    cases heff with
    | moves hn hd ht he hpn hpd hpt => exact .inl ⟨by rw [hd], hpd⟩
    | takesNext hfree hn hd ht he hpn hpd hpt => exact .inl ⟨by rw [hd], by rw [hpd.1, hpd.2]⟩
    | takesData hfree hn hd ht he hpn hpd hpt => exact .inr (.inl ⟨hfree, hd, hpd⟩)
    | dropsData hn hd ht he hpn hpd hpt => exact .inr (.inr ⟨hd, hpd⟩)
    | dropsNext hn hd ht he hpn hpd hpt => exact .inl ⟨by rw [hd], hpd⟩

theorem Agrees.run {w : FairMutex T} (h : Reaches FairMutex.step Any new w) : Agrees w :=
  h.invariant .start fun _ _ _ hw _ hs => hw.step hs

/-! ### Turns -/

/-- The threads got the data in the order of their turns, and the turn that is still open is the
last one. -/
structure InTurn (w : FairMutex T) : Prop where
  ordered : w.entered.Sublist w.turns
  open_last : ∀ t, (w.phase t).hasTurn = true →
    ∃ before, w.turns = before ++ [t] ∧ w.entered.Sublist before

theorem hasTurn_holdsNext {p : Phase} (h : p.hasTurn = true) : p.holdsNext = true := by
  cases p <;> first | rfl | cases h

omit [DecidableEq T] in
theorem InTurn.start : InTurn (new : FairMutex T) :=
  ⟨List.Sublist.refl _, fun t ht => by simp [FairMutex.new, Phase.hasTurn] at ht⟩

theorem InTurn.step {w w' : FairMutex T} {t : T} {act : Act} (ha : Agrees w) (h : InTurn w)
    (hs : FairMutex.step w (t, act) = some w') : InTurn w' := by
  obtain ⟨p, hphase, heff⟩ := step_effect hs
  -- a thread that still has its turn after the step had it before, or is the one that took it
  have hopen (hp : p.hasTurn = true → (w.phase t).hasTurn = true) (ht : w'.turns = w.turns)
      (he : w'.entered = w.entered) (u : T) (hu : (w'.phase u).hasTurn = true) :
      ∃ before, w'.turns = before ++ [u] ∧ w'.entered.Sublist before := by
    rw [ht, he]
    refine h.open_last u ?_
    rw [hphase] at hu
    by_cases hut : u = t
    · subst hut
      rw [Function.update_self] at hu
      exact hp hu
    · rwa [Function.update_of_ne hut] at hu
  cases heff with
  | moves hn hd ht he hpn hpd hpt =>
      exact ⟨by rw [ht, he]; exact h.ordered, hopen (fun hp => hpt ▸ hp) ht he⟩
  | dropsData hn hd ht he hpn hpd hpt =>
      exact ⟨by rw [ht, he]; exact h.ordered, hopen (fun hp => by rw [hpt] at hp; cases hp) ht he⟩
  | dropsNext hn hd ht he hpn hpd hpt =>
      exact ⟨by rw [ht, he]; exact h.ordered, hopen (fun hp => by rw [hpt] at hp; cases hp) ht he⟩
  | takesNext hfree hn hd ht he hpn hpd hpt =>
      refine ⟨?_, fun u hu => ?_⟩
      · rw [ht, he]
        exact h.ordered.trans (List.sublist_append_left _ _)
      · rw [hphase] at hu
        by_cases hut : u = t
        · subst hut
          exact ⟨w.turns, ht, by rw [he]; exact h.ordered⟩
        · rw [Function.update_of_ne hut] at hu
          have := (ha.next u).mpr (hasTurn_holdsNext hu)
          rw [hfree] at this
          cases this
  | takesData hfree hn hd ht he hpn hpd hpt =>
      obtain ⟨before, hbefore, hsub⟩ := h.open_last t hpt.1
      refine ⟨?_, fun u hu => ?_⟩
      · rw [ht, he, hbefore]
        exact hsub.append_right [t]
      · rw [hphase] at hu
        by_cases hut : u = t
        · subst hut
          rw [Function.update_self, hpt.2] at hu
          cases hu
        · rw [Function.update_of_ne hut] at hu
          have hu' := (ha.next u).mpr (hasTurn_holdsNext hu)
          rw [(ha.next t).mpr hpn.1] at hu'
          exact absurd (Option.some.inj hu').symm hut

theorem InTurn.run {w : FairMutex T} (h : Reaches FairMutex.step Any new w) : InTurn w := by
  have := h.invariant (P := fun w => Agrees w ∧ InTurn w) ⟨.start, .start⟩
    fun _ a _ hw _ hs => ⟨Agrees.step (t := a.1) hw.1 hs, hw.2.step hw.1 hs⟩
  exact this.2

/-- While a thread holds `next`, no other gets the data; it gets it once at most. -/
theorem step_while_next {w w' : FairMutex T} {t u : T} {act : Act} (ha : Agrees w)
    (hu : (w.phase u).holdsNext = true) (hs : step w (t, act) = some w') :
    w'.entered = w.entered ∧ ((w'.phase u).hasTurn = true → (w.phase u).hasTurn = true) ∨
      w'.entered = w.entered ++ [u] ∧ (w.phase u).hasTurn = true ∧ (w'.phase u).hasTurn = false := by
  obtain ⟨p, hphase, heff⟩ := step_effect hs
  have hkeep (hp : p.hasTurn = true → (w.phase t).hasTurn = true) :
      (w'.phase u).hasTurn = true → (w.phase u).hasTurn = true := by
    intro h
    rw [hphase] at h
    by_cases hut : u = t
    · subst hut
      rw [Function.update_self] at h
      exact hp h
    · rwa [Function.update_of_ne hut] at h
  cases heff with
  | moves hn hd ht he hpn hpd hpt => exact .inl ⟨he, hkeep fun hp => hpt ▸ hp⟩
  | dropsData hn hd ht he hpn hpd hpt =>
      exact .inl ⟨he, hkeep fun hp => by rw [hpt] at hp; cases hp⟩
  | dropsNext hn hd ht he hpn hpd hpt =>
      exact .inl ⟨he, hkeep fun hp => by rw [hpt] at hp; cases hp⟩
  | takesNext hfree hn hd ht he hpn hpd hpt =>
      rw [(ha.next u).mpr hu] at hfree
      cases hfree
  | takesData hfree hn hd ht he hpn hpd hpt =>
      have htu := (ha.next t).mpr hpn.1
      rw [(ha.next u).mpr hu] at htu
      obtain rfl := Option.some.inj htu
      exact .inr ⟨he, hpt.1, by rw [hphase, Function.update_self]; exact hpt.2⟩

/-- In every run the threads get the terminal in the order in which they got `next`. From any
state of a run, for as long as one thread holds `next`, whatever the others do, the terminal goes
to no one else: to that thread once at most, and for as long as it waits, to no one. -/
theorem run_in_turn {w w' : FairMutex T} {u : T} (h : Reaches step Any new w)
    (h' : Reaches step (fun v _ => (v.phase u).holdsNext = true) w w') :
    w.entered.Sublist w.turns ∧
      (w'.entered = w.entered ∨ w'.entered = w.entered ++ [u]) ∧
      ((w'.phase u).hasTurn = true → w'.entered = w.entered) := by
  refine ⟨(InTurn.run h).ordered, ?_⟩
  have hinv := h'.invariant (P := fun v => Agrees v ∧ (v.entered = w.entered ∨
    v.entered = w.entered ++ [u] ∧ (v.phase u).hasTurn = false)) ⟨Agrees.run h, .inl rfl⟩ ?_
  · obtain ⟨_, he | ⟨he, hp⟩⟩ := hinv
    · exact ⟨.inl he, fun _ => he⟩
    · exact ⟨.inr he, fun hp' => by rw [hp] at hp'; cases hp'⟩
  · rintro v ⟨t, act⟩ v' ⟨ha, hv⟩ hheld hs
    refine ⟨ha.step hs, ?_⟩
    rcases step_while_next ha hheld hs with ⟨he, hkeep⟩ | ⟨he, hturn, hdone⟩
    · rcases hv with hv | ⟨hv, hp⟩
      · exact .inl (he.trans hv)
      · refine .inr ⟨he.trans hv, ?_⟩
        by_contra hne
        rw [hkeep (by simpa using hne)] at hp
        cases hp
    · rcases hv with hv | ⟨_, hp⟩
      · exact .inr ⟨by rw [he, hv], hdone⟩
      · rw [hturn] at hp
        cases hp

/-- The reader leases the terminal while the interface asks for its turn, and is served first. -/
theorem run_in_turn_lease : ∃ w w' : FairMutex Bool,
    (w.phase true = .leased ∧ w.phase false = .lockNext ∧ w'.phase true = .reading) ∧
      w.entered.Sublist w.turns ∧
      (w'.entered = w.entered ∨ w'.entered = w.entered ++ [true]) ∧
      ((w'.phase true).hasTurn = true → w'.entered = w.entered) :=
  ⟨_, _, ⟨rfl, rfl, rfl⟩, run_in_turn
    (.step (a := (false, .lock)) (.step (a := (true, .acquireNext))
      (.step (a := (true, .lease)) .refl trivial rfl) trivial rfl) trivial rfl)
    (.step (a := (true, .tryLockUnfair)) .refl rfl rfl)⟩

/-! ### Progress -/

/-- The step moves its thread towards the end of what it does with the mutex. -/
def Advances (w : FairMutex T) (op : T × Act) : Prop :=
  Returns (step w op) fun w' => ∃ p, w'.phase = Function.update w.phase op.1 p ∧
    p.left < (w.phase op.1).left

theorem advances_of {w w' : FairMutex T} {t : T} {p : Phase} (act : Act)
    (hs : step w (t, act) = some w') (hphase : w'.phase = Function.update w.phase t p)
    (hlt : p.left < (w.phase t).left) : ∃ op, Advances w op :=
  ⟨(t, act), w', hs, p, hphase, hlt⟩

theorem advances_release {w : FairMutex T} {t : T} (h : (w.phase t).holdsData = true) :
    ∃ op, Advances w op := by
  cases hp : w.phase t with
  | dropNext =>
      refine advances_of (t := t) (p := .locked) .releaseNext (by simp only [step, hp]; rfl) rfl ?_
      simp [hp, Phase.left]
  | locked =>
      refine advances_of (t := t) (p := .idle) .releaseData (by simp only [step, hp]; rfl) rfl ?_
      simp [hp, Phase.left]
  | reading =>
      refine advances_of (t := t) (p := .leaving) .releaseData (by simp only [step, hp]; rfl) rfl ?_
      simp [hp, Phase.left]
  | _ => simp [hp, Phase.holdsData] at h

/-- Whoever holds `next` can go on once the data is free. -/
theorem advances_next {w : FairMutex T} {t : T} (h : (w.phase t).holdsNext = true)
    (hdata : (w.phase t).holdsData = false) (hfree : w.data.holder = none) : ∃ op, Advances w op := by
  have hlock := Mutex.lock_free hfree t
  cases hp : w.phase t with
  | lockData =>
      refine advances_of (t := t) (p := .dropNext) .acquireData
        (by simp only [step, hp, takeData, hlock]; rfl) rfl ?_
      simp [hp, Phase.left]
  | leasedData =>
      refine advances_of (t := t) (p := .reading) .acquireData
        (by simp only [step, hp, takeData, hlock]; rfl) rfl ?_
      simp [hp, Phase.left]
  | leased | leaving =>
      refine advances_of (t := t) (p := .idle) .releaseNext (by simp only [step, hp]; rfl) rfl ?_
      simp [hp, Phase.left]
  | dropNext | reading => simp [hp, Phase.holdsData] at hdata
  | idle | lockNext | locked | leaseNext => simp [hp, Phase.holdsNext] at h

/-- Some thread can always go on. -/
theorem exists_advances {w : FairMutex T} (h : Agrees w) {t : T} (ht : w.phase t ≠ .idle) :
    ∃ op, Advances w op := by
  cases hd : w.data.holder with
  | some u => exact advances_release ((h.data u).mp hd)
  | none =>
      have hnodata (u : T) : (w.phase u).holdsData = false := by
        by_contra hu
        have := (h.data u).mpr (by simpa using hu)
        rw [hd] at this
        cases this
      cases hn : w.next.holder with
      | some u => exact advances_next ((h.next u).mp hn) (hnodata u) hd
      | none =>
          have hnonext : (w.phase t).holdsNext = false := by
            by_contra hu
            have := (h.next t).mpr (by simpa using hu)
            rw [hn] at this
            cases this
          have hlock := Mutex.lock_free hn t
          have hdata := hnodata t
          cases hp : w.phase t with
          | idle => exact absurd hp ht
          | lockNext =>
              refine advances_of (t := t) (p := .lockData) .acquireNext
                (by simp only [step, hp, takeNext, hlock]; rfl) rfl ?_
              simp [hp, Phase.left]
          | leaseNext =>
              refine advances_of (t := t) (p := .leased) .acquireNext
                (by simp only [step, hp, takeNext, hlock]; rfl) rfl ?_
              simp [hp, Phase.left]
          | locked => simp [hp, Phase.holdsData] at hdata
          | lockData | dropNext | leased | leasedData | reading | leaving =>
              simp [hp, Phase.holdsNext] at hnonext

variable [Fintype T]

/-- The steps that all the threads together can have left. -/
def left (w : FairMutex T) : Nat := ∑ t, (w.phase t).left

theorem Advances.left_lt {w w' : FairMutex T} {op : T × Act} (h : Advances w op)
    (hs : step w op = some w') : w'.left < w.left := by
  obtain ⟨p, hphase, hp⟩ := h.of_eq hs
  refine Finset.sum_lt_sum (fun t _ => ?_) ⟨op.1, Finset.mem_univ _, ?_⟩
  · rw [hphase]
    by_cases ht : t = op.1
    · subst ht
      rw [Function.update_self]
      exact hp.le
    · rw [Function.update_of_ne ht]
  · rw [hphase, Function.update_self]
    exact hp

/-- From every state the threads can all be brought to an end, in as many steps as are left. -/
theorem exists_finish {w : FairMutex T} (h : Agrees w) :
    ∃ ops w', runOps step w ops = some w' ∧ ops.length ≤ w.left ∧ ∀ t, w'.phase t = .idle := by
  by_cases hidle : ∀ t, w.phase t = .idle
  · exact ⟨[], w, rfl, Nat.zero_le _, hidle⟩
  · obtain ⟨t, ht⟩ := not_forall.mp hidle
    obtain ⟨op, hadv⟩ := exists_advances h ht
    obtain ⟨v, hv, hlt⟩ : ∃ v, step w op = some v ∧ v.left < w.left := by
      obtain ⟨v, hv, _⟩ := id hadv
      exact ⟨v, hv, hadv.left_lt hv⟩
    obtain ⟨ops, w', hrun, hlen, hdone⟩ := exists_finish (Agrees.step (t := op.1) h hv)
    refine ⟨op :: ops, w', ?_, by simp; omega, hdone⟩
    rw [runOps, hv]
    exact hrun
termination_by w.left

/-- In every run at most one thread has the terminal's guard and at most one holds `next`, and
they never block each other for good: however the threads got there, they can all still finish. -/
theorem run_exclusive {w : FairMutex T} (h : Reaches step Any new w) :
    (∀ t u, (w.phase t).holdsData = true → (w.phase u).holdsData = true → t = u) ∧
      (∀ t u, (w.phase t).holdsNext = true → (w.phase u).holdsNext = true → t = u) ∧
      ∃ ops w', runOps step w ops = some w' ∧ ops.length ≤ 5 * Fintype.card T ∧
        w'.data.holder = none ∧ w'.next.holder = none ∧ ∀ t, w'.phase t = .idle := by
  have ha := Agrees.run h
  have hunique (f : Phase → Bool) (o : Option T) (hf : ∀ t, o = some t ↔ f (w.phase t) = true)
      (t u : T) (ht : f (w.phase t) = true) (hu : f (w.phase u) = true) : t = u := by
    have := (hf t).mpr ht
    rw [(hf u).mpr hu] at this
    exact (Option.some.inj this).symm
  refine ⟨hunique _ _ ha.data, hunique _ _ ha.next, ?_⟩
  obtain ⟨ops, w', hrun, hlen, hidle⟩ := exists_finish ha
  have ha' : Agrees w' := by
    clear hlen hidle hunique h
    induction ops generalizing w with
    | nil => cases hrun; exact ha
    | cons op ops ih =>
        rw [runOps, Option.bind_eq_bind, Option.bind_eq_some_iff] at hrun
        obtain ⟨v, hv, hrun⟩ := hrun
        exact ih (Agrees.step (t := op.1) ha hv) hrun
  have hfree (f : Phase → Bool) (o : Option T) (hf : ∀ t, o = some t ↔ f (w'.phase t) = true)
      (hnot : f .idle = false) : o = none := by
    cases o with
    | none => rfl
    | some t =>
        have := (hf t).mp rfl
        rw [hidle t, hnot] at this
        cases this
  refine ⟨ops, w', hrun, hlen.trans ?_, hfree _ _ ha'.data rfl, hfree _ _ ha'.next rfl, hidle⟩
  calc w.left ≤ ∑ _t : T, 5 := Finset.sum_le_sum fun t _ => by cases w.phase t <;> decide
    _ = 5 * Fintype.card T := by simp [Nat.mul_comm]

theorem run_exclusive_lock : ∃ w : FairMutex Bool, w.phase true = .lockData ∧
    (∀ t u, (w.phase t).holdsData = true → (w.phase u).holdsData = true → t = u) ∧
      (∀ t u, (w.phase t).holdsNext = true → (w.phase u).holdsNext = true → t = u) ∧
      ∃ ops w', runOps step w ops = some w' ∧ ops.length ≤ 5 * Fintype.card Bool ∧
        w'.data.holder = none ∧ w'.next.holder = none ∧ ∀ t, w'.phase t = .idle :=
  ⟨_, rfl, run_exclusive (.step (a := (true, .acquireNext))
    (.step (a := (true, .lock)) .refl trivial rfl) trivial rfl)⟩

end FairMutex
end Velacritty

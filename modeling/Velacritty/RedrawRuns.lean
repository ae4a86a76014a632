import Velacritty.Redraw

/-! No change of a window stays unseen: a redraw is always on its way. Frames are paced. -/
namespace Velacritty
open Fallible Scheduler
variable {W : Type}

namespace Scheduler
variable [DecidableEq W] {s : Scheduler W (Event W)} {now : Nat} {w : W} {id : TimerId W}
  {timer : Timer W (Event W)}

theorem mem_unschedule (h : timer ∈ s.timers) (hid : timer.id ≠ id) : timer ∈ (s.unschedule id).2.timers := by
  obtain ⟨-, hperm, hgone, -⟩ := s.unschedule_spec id
  rcases List.mem_append.mp (hperm.mem_iff.mpr h) with hmem | hmem
  · exact absurd (hgone timer (Option.mem_toList.mp hmem)) hid
  · exact hmem

omit [DecidableEq W] in
theorem mem_schedule (h : timer ∈ s.timers) (event : Event W) (interval : Nat) (repeats : Bool)
    (id : TimerId W) : timer ∈ (s.schedule now event interval repeats id).timers := by
  rw [schedule_timers, SortedQueue.mem_insert]
  exact .inr h

omit [DecidableEq W] in
theorem newTimer_mem (s : Scheduler W (Event W)) (now : Nat) (event : Event W) (interval : Nat)
    (repeats : Bool) (id : TimerId W) : newTimer now event interval repeats id ∈
      (s.schedule now event interval repeats id).timers := by
  rw [schedule_timers, SortedQueue.mem_insert]
  exact .inl rfl

theorem mem_perform (h : timer ∈ s.timers) (hid : timer.id.topic = .frame) {call : TimerCall}
    (hexit : call = .exit → timer.id.windowId ≠ w) : timer ∈ (s.perform now w call).timers := by
  have hkeep {s : Scheduler W (Event W)} {topic : Topic} (hmem : timer ∈ s.timers) (ht : topic ≠ .frame) :
      timer ∈ (s.unschedule ⟨topic, w⟩).2.timers :=
    mem_unschedule hmem fun heq => ht ((congrArg TimerId.topic heq).symm.trans hid)
  have hblink {s : Scheduler W (Event W)} (c : BlinkConfig) (blinking : Bool) (hmem : timer ∈ s.timers) :
      timer ∈ (s.updateCursorBlinking now w c blinking).timers := by
    have hboth := hkeep (hkeep hmem (show Topic.blinkCursor ≠ .frame by decide))
      (show Topic.blinkTimeout ≠ .frame by decide)
    unfold updateCursorBlinking scheduleBlinkingTimeout
    split
    · split
      · exact mem_schedule hboth ..
      · exact mem_schedule (mem_schedule hboth ..) ..
    · exact hboth
  have hsearch := hkeep h (show Topic.delayedSearch ≠ .frame by decide)
  have hgoto (outcome : SearchOutcome) : timer ∈ (s.gotoMatch now w outcome).timers := by
    cases outcome with
    | found => exact hsearch
    | notFound limited =>
        cases limited with
        | false => exact hsearch
        | true =>
            simp only [gotoMatch]
            split
            · exact h
            · exact mem_schedule h ..
  cases call with
  | updateSelectionScrolling areas mouseY =>
      simp only [perform, updateSelectionScrolling]
      split
      · exact hkeep h (by decide)
      · exact mem_schedule (hkeep h (by decide)) ..
  | onMouseRelease => exact hkeep h (by decide)
  | searchResetState => exact hsearch
  | gotoMatch outcome => exact hgoto outcome
  | confirmSearch outcome =>
      simp only [perform, confirmSearch]
      split
      · exact hgoto outcome
      · exact h
  | resetSearchDelay =>
      simp only [perform, resetSearchDelay]
      split
      · next t s' hs =>
          rw [hs] at hsearch
          exact mem_schedule hsearch ..
      · next s' hs =>
          rw [hs] at hsearch
          exact hsearch
  | updateCursorBlinking c blinking => exact hblink c blinking h
  | onTypingStart c blinking timedOut =>
      have hcursor := hkeep h (show Topic.blinkCursor ≠ .frame by decide)
      simp only [perform, onTypingStart]
      split
      · next t s' hs =>
          rw [hs] at hcursor
          exact mem_schedule hcursor ..
      · next s' hs =>
          rw [hs] at hcursor
          split
          · exact hblink c blinking hcursor
          · exact hcursor
  | onBlinkCursorTimeout => exact hkeep h (by decide)
  | onResized width height =>
      simp only [perform, onResized]
      split
      · exact h
      · exact mem_schedule (hkeep h (by decide)) ..
  | requestFrame swapTimeout => exact mem_schedule h ..
  | exit => exact List.mem_filter.mpr ⟨h, decide_eq_true (hexit rfl)⟩

omit [DecidableEq W] in
/-- `update` sends the event of a timer that is due, and keeps the timer otherwise. -/
theorem mem_update (h : s.WF) {clock : Nat → Nat} (hclock : Monotone clock) {fuel : Nat}
    {next : Option Nat} {sent : List (Event W)} {s' : Scheduler W (Event W)}
    (hs : s.update clock fuel = some (s', next, sent)) (ht : timer ∈ s.timers) :
    timer.event ∈ sent ∨ timer ∈ s'.timers := by
  rw [update_eq h hclock, Option.ite_none_right_eq_some] at hs
  cases hs.2
  by_cases hdue : timer.deadline ≤ clock 0
  · exact .inl (List.mem_map_of_mem (List.mem_filter.mpr ⟨ht, decide_eq_true hdue⟩))
  · refine .inr ((SortedQueue.insertAll_perm _ _).mem_iff.mpr (List.mem_append_right _ ?_))
    exact List.mem_filter.mpr ⟨ht, decide_eq_true (Nat.lt_of_not_le hdue)⟩

end Scheduler

namespace Screen
variable {s s' : Screen W} {id : W}

/-- The window's next frame: a timer, or an event on its way. -/
def FrameComes (s : Screen W) (id : W) : Prop :=
  (∃ timer ∈ s.scheduler.timers, timer.id = ⟨.frame, id⟩) ∨ ⟨.frame, some id⟩ ∈ s.inFlight

/-- A change that is not drawn yet leads to a redraw: an event is still queued, a redraw was
requested, or the next frame comes and requests one. -/
structure Owed (id : W) (s : Screen W) : Prop where
  orderly : s.scheduler.Orderly
  requested : s.window.requestedRedraw = true → s.redrawPending = true
  frame : s.window.hasFrame = false → s.FrameComes id
  dirty : s.window.dirty = true → s.window.occluded = false →
    s.window.eventQueue ≠ [] ∨ s.window.requestedRedraw = true ∨ s.window.hasFrame = false

theorem requestRedraw_eq (s : Screen W) : s.requestRedraw = { s with
    window := { s.window with requestedRedraw := true }
    redrawPending := s.redrawPending || !s.window.requestedRedraw } := by
  obtain ⟨⟨queue, dirty, occluded, hasFrame, requested, update, hints, timer⟩, scheduler, inFlight, pending⟩ := s
  cases requested with
  | false =>
      rw [Bool.not_false, Bool.or_true]
      rfl
  | true =>
      rw [Bool.not_true, Bool.or_false]
      rfl

/-- The state before a redraw is requested need not owe one. -/
theorem Owed.requestRedraw (horderly : s.scheduler.Orderly)
    (hrequested : s.window.requestedRedraw = true → s.redrawPending = true)
    (hframe : s.window.hasFrame = false → s.FrameComes id) : Owed id s.requestRedraw := by
  rw [requestRedraw_eq]
  refine ⟨horderly, fun _ => ?_, hframe, fun _ _ => .inr (.inl rfl)⟩
  cases h : s.window.requestedRedraw with
  | false => exact Bool.or_true _
  | true =>
      simp only [hrequested h]
      rfl

theorem Owed.push (h : Owed id s) (e : QueuedEvent) : Owed id (s.push e) :=
  ⟨h.orderly, h.requested, h.frame, fun _ _ => .inl (List.append_ne_nil_of_right_ne_nil _ (List.cons_ne_nil _ _))⟩

/-- Handling the queue changes nothing but the flags it is for. -/
theorem foldl_process (es : List QueuedEvent) (w : Window) :
    (es.foldl Window.process w).hasFrame = w.hasFrame ∧
      (es.foldl Window.process w).requestedRedraw = w.requestedRedraw := by
  induction es generalizing w with
  | nil => exact ⟨rfl, rfl⟩
  | cons e es ih => exact ih (w.process e)

theorem processQueue_frame (w : Window) (hints : Bool) :
    (w.processQueue hints).hasFrame = w.hasFrame ∧
      (w.processQueue hints).requestedRedraw = w.requestedRedraw := by
  have hfold := foldl_process w.eventQueue w
  simp only [Window.processQueue]
  split
  · split
    · exact hfold
    · exact hfold
  · split
    · exact hfold
    · exact hfold

/-- Before a redraw nothing is requested: what is owed is checked after it. -/
theorem handleEvent_redraw (s : Screen W) (hints : Bool) :
    (s.handleEvent true hints).scheduler = s.scheduler ∧ (s.handleEvent true hints).inFlight = s.inFlight ∧
      (s.handleEvent true hints).window.hasFrame = s.window.hasFrame := by
  unfold handleEvent
  split
  · exact ⟨rfl, rfl, rfl⟩
  · simp only [Bool.not_true, Bool.and_false, Bool.false_eq_true, if_false]
    exact ⟨trivial, trivial, (processQueue_frame _ _).1⟩

theorem Owed.handleEvent (h : Owed id s) (hints : Bool) : Owed id (s.handleEvent false hints) := by
  obtain ⟨hframe, hrequested⟩ := processQueue_frame s.window hints
  unfold Screen.handleEvent
  split
  · exact h
  · simp only
    split
    · exact .requestRedraw h.orderly (fun hr => h.requested (hrequested.symm.trans hr))
        fun hf => h.frame (hframe.symm.trans hf)
    · next hnone =>
        refine ⟨h.orderly, fun hr => h.requested (hrequested.symm.trans hr),
          fun hf => h.frame (hframe.symm.trans hf), fun hdirty hvisible => .inr (.inr ?_)⟩
        simp only at hdirty hvisible ⊢
        rw [hdirty, hvisible] at hnone
        simpa using hnone

theorem Owed.wakeup (h : Owed id s) : Owed id s.wakeup := by
  unfold Screen.wakeup
  simp only
  split
  · exact .requestRedraw h.orderly h.requested h.frame
  · next hnone => exact ⟨h.orderly, h.requested, h.frame, fun _ _ => .inr (.inr (Bool.not_eq_true _ ▸ hnone))⟩

theorem Owed.of_frame (h : Owed id s) {rest : List (Scheduler.Event W)} :
    Owed id (Screen.frame { s with inFlight := rest }) := by
  unfold Screen.frame
  simp only
  split
  · exact .requestRedraw h.orderly h.requested nofun
  · next hclean => exact ⟨h.orderly, h.requested, nofun, fun hdirty => absurd hdirty hclean⟩

theorem Owed.arrived (h : Owed id s) {event : Scheduler.Event W} {rest : List (Scheduler.Event W)}
    (hflight : s.inFlight = event :: rest) (hother : event ≠ ⟨.frame, some id⟩) : Owed id { s with inFlight := rest } := by
  refine ⟨h.orderly, h.requested, fun hf => ?_, h.dirty⟩
  rcases h.frame hf with htimer | hsent
  · exact .inl htimer
  · rw [hflight, List.mem_cons] at hsent
    exact .inr (hsent.resolve_left hother.symm)

theorem Owed.ringBell (horderly : s.scheduler.Orderly) (hclean : s.window.dirty = false)
    (hrequested : s.window.requestedRedraw = false)
    (hframe : s.window.hasFrame = false → s.FrameComes id) (completed : Bool) :
    Owed id (s.ringBell completed) := by
  have hnone : s.window.requestedRedraw = true → s.redrawPending = true := by
    rw [hrequested]
    exact nofun
  unfold Screen.ringBell
  split
  · exact ⟨horderly, hnone, hframe, fun hdirty => absurd hdirty (by rw [hclean]; exact nofun)⟩
  · split
    · exact .requestRedraw horderly hnone hframe
    · next hf => exact ⟨horderly, hnone, hframe, fun _ _ => .inr (.inr (Bool.not_eq_true _ ▸ hf))⟩

theorem Owed.requestFrame (h : Owed id s) {now vblankInterval : Nat}
    (hs : s.requestFrame id now vblankInterval = some s') : Owed id s' := by
  simp only [Screen.requestFrame, Option.map_eq_some_iff] at hs
  obtain ⟨⟨swapTimeout, frameTimer⟩, -, rfl⟩ := hs
  refine ⟨?_, h.requested, fun _ => .inl ?_, fun _ _ => .inr (.inr rfl)⟩
  · exact h.orderly.schedule nofun rfl ⟨rfl, rfl⟩ (.inr rfl)
  · exact ⟨_, newTimer_mem s.scheduler now ⟨.frame, some id⟩ swapTimeout false ⟨.frame, id⟩, rfl⟩

/-- Drawing takes all changes with it, or the window is occluded. -/
theorem Owed.draw {i : DrawInput} (horderly : s.scheduler.Orderly)
    (hframe : s.window.hasFrame = false → s.FrameComes id) (hs : s.draw id i = some s') : Owed id s' := by
  simp only [Screen.draw] at hs
  split at hs
  · next hocc =>
      cases hs
      exact ⟨horderly, nofun, hframe, fun _ hvisible => absurd hocc (by rw [hvisible]; exact nofun)⟩
  · have hbell := Owed.ringBell (s := { s with
      window := { s.window with requestedRedraw := false, dirty := false } }) horderly rfl rfl hframe i.bellCompleted
    split at hs
    · cases hs
      exact hbell
    · exact hbell.requestFrame hs

variable [DecidableEq W]

theorem Owed.step {op : Op W} (h : Owed id s) (hok : Admits id s op) (hs : step id s op = some s') :
    Owed id s' := by
  cases op with
  | windowEvent e =>
      cases hs
      exact h.push e
  | wakeup =>
      cases hs
      exact h.wakeup
  | userEvent e =>
      simp only [Screen.step] at hs
      split at hs
      · cases hs
      · next event rest hflight =>
          split at hs
          · next hnone =>
              cases hs
              exact (h.arrived hflight fun heq => nomatch (congrArg Scheduler.Event.windowId heq).symm.trans hnone).push e
          · split at hs
            · next hother =>
                cases hs
                exact h.arrived hflight fun heq => hother (congrArg Scheduler.Event.windowId heq)
            · split at hs
              · cases hs
                exact h.of_frame
              · next hpayload =>
                  cases hs
                  exact (h.arrived hflight fun heq => hpayload (congrArg Scheduler.Event.payload heq)).push e
  | clearMessages =>
      cases hs
      exact ⟨h.orderly, h.requested, h.frame, h.dirty⟩
  | updateConfig updatesDisplay e =>
      cases hs
      have hpush := h.push e
      exact ⟨hpush.orderly, hpush.requested, hpush.frame,
        fun _ _ => .inl (List.append_ne_nil_of_right_ne_nil _ (List.cons_ne_nil _ _))⟩
  | redrawRequested hints i =>
      obtain ⟨hscheduler, hflight, hframe⟩ := handleEvent_redraw { s with redrawPending := false } hints
      have horderly : ({ s with redrawPending := false }.handleEvent true hints).scheduler.Orderly := by
        rw [hscheduler]
        exact h.orderly
      refine .draw horderly (fun hf => ?_) hs
      rw [FrameComes, hscheduler, hflight]
      exact h.frame (hframe.symm.trans hf)
  | aboutToWait hints clock fuel =>
      simp only [Screen.step, Option.map_eq_some_iff] at hs
      obtain ⟨⟨scheduler, next, sent⟩, hupdate, rfl⟩ := hs
      have hq := h.handleEvent hints
      refine ⟨?_, hq.requested, fun hf => ?_, hq.dirty⟩
      · rw [Scheduler.update_eq hq.orderly.wf hok, Option.ite_none_right_eq_some] at hupdate
        cases hupdate.2
        exact hq.orderly.updated clock
      · rcases hq.frame hf with ⟨timer, htimer, hid⟩ | hsent
        · rcases Scheduler.mem_update hq.orderly.wf hok hupdate htimer with hmem | hmem
          · obtain ⟨hwindow, hsends⟩ := hq.orderly.proper timer htimer
            rw [hid] at hwindow hsends
            have hevent : timer.event = ⟨.frame, some id⟩ := by
              rw [← hwindow, ← hsends.1]
            exact .inr (List.mem_append_right _ (hevent ▸ hmem))
          · exact .inl ⟨timer, hmem, hid⟩
        · exact .inr (List.mem_append_left _ hsent)
  | timers now w call =>
      cases hs
      refine ⟨h.orderly.perform call, h.requested, fun hf => ?_, h.dirty⟩
      rcases h.frame hf with ⟨timer, htimer, hid⟩ | hsent
      · refine .inl ⟨timer, Scheduler.mem_perform htimer (congrArg TimerId.topic hid) fun hexit => ?_, hid⟩
        rw [hid]
        exact fun heq => hok heq.symm hexit
      · exact .inr hsent

/-- In every run, a visible window with changes that are not drawn will be redrawn: one of its
events is still queued, the windowing system owes it a redraw, or its next frame comes. -/
theorem run_owed {now : Nat} (h : Reaches (step id) (Admits id) (new now : Screen W) s)
    (hdirty : s.window.dirty = true) (hvisible : s.window.occluded = false) :
    s.window.eventQueue ≠ [] ∨ s.redrawPending = true ∨ s.FrameComes id := by
  have howed : Owed id s := h.invariant ⟨⟨⟨List.Pairwise.nil, nofun⟩, List.Pairwise.nil, nofun⟩, nofun, nofun, nofun⟩
    fun _ _ _ hs hok hstep => hs.step hok hstep
  rcases howed.dirty hdirty hvisible with hqueue | hrequested | hframe
  · exact .inl hqueue
  · exact .inr (.inl (howed.requested hrequested))
  · exact .inr (.inr (howed.frame hframe))

/-- A terminal's output while the window waits for a frame. -/
theorem run_owed_wakeup : ∃ s : Screen Nat, s.window.hasFrame = false ∧ s.window.dirty = true ∧
    (s.window.eventQueue ≠ [] ∨ s.redrawPending = true ∨ s.FrameComes 7) := by
  have hrun : Reaches (step 7) (Admits 7) (new 0 : Screen Nat) _ :=
    .step (.step .refl (a := .redrawRequested false ⟨true, 5000, 16666000, false⟩) trivial rfl) (a := .wakeup) trivial rfl
  exact ⟨_, rfl, rfl, run_owed hrun rfl rfl⟩

end Screen

/-! ### Frames -/

namespace FrameTimer
variable {t : FrameTimer} {micros now base n : Nat}

/-- The times at which frames are due, for draws at the times given. -/
def deadlines (interval : Nat) : FrameTimer → List Nat → Option (List Nat)
  | _, [] => some []
  | t, now :: nows => do
      let (timeout, t) ← t.computeTimeout now interval
      let rest ← deadlines interval t nows
      some ((now + timeout) :: rest)

/-- At the `k`-th sync point, or less than a microsecond after it. -/
def AtSync (interval base k time : Nat) : Prop :=
  base + interval * k ≤ time ∧ time < base + interval * k + 1000

/-- The timer was synced at least `n` times since its base, to a sync point each time. -/
structure Synced (interval base n : Nat) (t : FrameTimer) : Prop where
  refreshInterval : t.refreshInterval = interval
  base_eq : t.base = base
  synced : ∃ k, n ≤ k ∧ AtSync interval base k t.lastSyncedTimestamp

/-- A whole number of intervals before now, counted in microseconds. -/
theorem last_sync (micros : Nat) (h : base ≤ now) :
    AtSync (1000 * micros) base ((now - base) / 1000 / micros) (now - (now - base) / 1000 % micros * 1000) := by
  have hnow := Nat.div_add_mod (now - base) 1000
  have hmod := Nat.mod_lt (now - base) (show 1000 > 0 by decide)
  have hsplit := Nat.div_add_mod ((now - base) / 1000) micros
  rw [AtSync, Nat.mul_assoc]
  omega

/-- The next sync point is a later one, and the frame is not due before it. -/
theorem Synced.next (h : Synced (1000 * micros) base n t) (hpos : 0 < micros) (hmicros : micros < 2 ^ 64)
    (hbase : base ≤ now) (hnow : now < base + 1000 * 2 ^ 64) :
    Returns (t.computeTimeout now (1000 * micros)) fun r => Synced (1000 * micros) base (n + 1) r.2 ∧
      base + 1000 * micros * (n + 1) ≤ now + r.1 ∧
      (r.1 = 0 ∨ ∃ k, AtSync (1000 * micros) base k (now + r.1)) := by
  obtain ⟨hinterval, hb, k, hk, hlast⟩ := h
  have helapsed : (now - base) / 1000 % 2 ^ 64 = (now - base) / 1000 := Nat.mod_eq_of_lt (by omega)
  have hrefresh : 1000 * micros / 1000 % 2 ^ 64 = micros := by
    rw [Nat.mul_div_cancel_left micros (by decide), Nat.mod_eq_of_lt hmicros]
  have hlater : 1000 * micros * (n + 1) ≤ 1000 * micros * (k + 1) := Nat.mul_le_mul_left _ (Nat.succ_le_succ hk)
  have hnext : AtSync (1000 * micros) base (k + 1) (t.lastSyncedTimestamp + 1000 * micros) := by
    rw [AtSync] at hlast ⊢
    rw [Nat.mul_succ]
    omega
  simp only [computeTimeout, hinterval, hb, ne_eq, not_true_eq_false, if_false, helapsed, hrefresh,
    if_neg (Nat.ne_of_gt hpos)]
  split
  · next hover =>
      have hq : k + 1 ≤ (now - base) / 1000 / micros := by
        refine (Nat.le_div_iff_mul_le hpos).mpr ((Nat.le_div_iff_mul_le (by decide)).mpr ?_)
        have hmul : (k + 1) * micros * 1000 = 1000 * micros * (k + 1) := by
          rw [Nat.mul_comm (k + 1), Nat.mul_comm _ 1000, Nat.mul_assoc]
        have := hnext.1
        omega
      refine .pure ⟨⟨rfl, rfl, _, Nat.le_trans (Nat.succ_le_succ hk) hq, last_sync micros hbase⟩, ?_, .inl rfl⟩
      have := hnext.1
      simp only
      omega
  · next hwait =>
      have hdue : now + (t.lastSyncedTimestamp + 1000 * micros - now) = t.lastSyncedTimestamp + 1000 * micros :=
        Nat.add_sub_cancel' (Nat.le_of_not_lt hwait)
      refine .pure ⟨⟨rfl, rfl, k + 1, Nat.succ_le_succ hk, hnext⟩, ?_, .inr ⟨k + 1, ?_⟩⟩
      · rw [hdue]
        exact Nat.le_trans (Nat.add_le_add_left hlater base) hnext.1
      · rw [hdue]
        exact hnext

theorem Synced.deadlines (h : Synced (1000 * micros) base n t) (hpos : 0 < micros) (hmicros : micros < 2 ^ 64)
    {nows : List Nat} (hclock : ∀ now ∈ nows, base ≤ now ∧ now < base + 1000 * 2 ^ 64) :
    Returns (t.deadlines (1000 * micros) nows) fun ds =>
      ds.length = nows.length ∧ ∀ i now d, nows[i]? = some now → ds[i]? = some d →
        base + 1000 * micros * (n + 1 + i) ≤ d ∧ (d = now ∨ ∃ k, AtSync (1000 * micros) base k d) := by
  induction nows generalizing n t with
  | nil => exact .pure ⟨rfl, fun i now d hnow => nomatch hnow⟩
  | cons now nows ih =>
      obtain ⟨hnow, hrest⟩ := List.forall_mem_cons.mp hclock
      rw [FrameTimer.deadlines]
      refine (h.next hpos hmicros hnow.1 hnow.2).bind fun r hr => ?_
      obtain ⟨hsynced, hlate, hpoint⟩ := hr
      refine (ih hsynced hrest).bind fun ds hds => ?_
      obtain ⟨hlength, hds⟩ := hds
      refine .pure ⟨congrArg Nat.succ hlength, fun i now' d hi hd => ?_⟩
      cases i with
      | zero =>
          rw [List.getElem?_cons_zero, Option.some.injEq] at hi hd
          subst hi hd
          exact ⟨hlate, hpoint.imp (fun hzero => by rw [hzero, Nat.add_zero]) id⟩
      | succ i =>
          obtain ⟨hle, hsync⟩ := hds i now' d hi hd
          refine ⟨?_, hsync⟩
          rwa [show n + 1 + (i + 1) = n + 1 + 1 + i by omega]

/-- Frames are paced: of the draws since the first one, the frame for the `i`-th is not due before
`i` intervals have passed, and it is due at once or within a microsecond after a sync point. -/
theorem deadlines_paced (start : Nat) {first : Nat} {nows : List Nat} (hpos : 0 < micros)
    (hmicros : micros < 2 ^ 64) (hclock : ∀ now ∈ nows, first ≤ now ∧ now < first + 1000 * 2 ^ 64) :
    Returns ((new start).deadlines (1000 * micros) (first :: nows)) fun ds =>
      ds.length = nows.length + 1 ∧ ∀ i now d, (first :: nows)[i]? = some now → ds[i]? = some d →
        first + 1000 * micros * i ≤ d ∧ (d = now ∨ ∃ k, AtSync (1000 * micros) first k d) := by
  have hfirst : (new start).computeTimeout first (1000 * micros) =
      some (1000 * micros, ⟨first, first, 1000 * micros⟩) := if_pos (show 0 ≠ 1000 * micros by omega)
  rw [FrameTimer.deadlines, hfirst]
  have hsynced : Synced (1000 * micros) first 0 ⟨first, first, 1000 * micros⟩ :=
    ⟨rfl, rfl, 0, Nat.le_refl _, Nat.le_refl _, Nat.lt_add_of_pos_right (by decide)⟩
  refine (hsynced.deadlines hpos hmicros hclock).bind fun ds hds => ?_
  obtain ⟨hlength, hds⟩ := hds
  refine .pure ⟨congrArg Nat.succ hlength, fun i now d hi hd => ?_⟩
  cases i with
  | zero =>
      rw [List.getElem?_cons_zero, Option.some.injEq] at hd
      subst hd
      refine ⟨Nat.add_le_add_left (Nat.zero_le _) _, .inr ⟨1, ?_⟩⟩
      rw [AtSync, Nat.mul_one]
      exact ⟨Nat.le_refl _, Nat.lt_add_of_pos_right (by decide)⟩
  | succ i =>
      obtain ⟨hle, hsync⟩ := hds i now d hi hd
      refine ⟨?_, hsync⟩
      rwa [show 0 + 1 + i = i + 1 by omega] at hle

/-- Every 16 milliseconds: a draw 40 milliseconds and half a microsecond after the first one is
late, and the frame for the next draw is due half a microsecond after a sync point. -/
theorem deadlines_paced_late :
    (new 0).deadlines (1000 * 16000) [0, 40000500, 40001000] = some [16000000, 40000500, 48000500] ∧
      Returns ((new 0).deadlines (1000 * 16000) [0, 40000500, 40001000]) fun ds => ds.length = 3 :=
  ⟨by decide, (deadlines_paced 0 (by decide) (by decide) (by decide)).mono fun _ h => h.1⟩

end FrameTimer
end Velacritty

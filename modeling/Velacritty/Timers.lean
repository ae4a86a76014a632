import Velacritty.SchedulerRuns

/-! The timers of the program: who schedules and cancels them. Times are in nanoseconds. -/
namespace Velacritty
open Fallible
variable {W : Type}

/-- The payloads of events that timers send. -/
inductive EventType where
  | scroll (delta : Int)
  | searchNext
  | blinkCursor
  | blinkCursorTimeout
  | frame
  | resize (width height : Nat)
  deriving DecidableEq, Repr

structure Scheduler.Event (W : Type) where
  payload : EventType
  windowId : Option W
  deriving DecidableEq, Repr

def typingSearchDelay : Nat := 500 * 1000000
def selectionScrollingInterval : Nat := 15 * 1000000
def resizeDebounceDuration : Nat := 16 * 1000000

/-- The minimum blink interval value in milliseconds. -/
def minBlinkInterval : Nat := 10

/-- The minimum number of blinks before pausing. -/
def minBlinkCyclesBeforePause : Nat := 1

/-- The blinking options of the cursor's config. -/
structure BlinkConfig where
  blinkInterval : Nat
  blinkTimeout : Nat
  deriving DecidableEq, Repr

def BlinkConfig.interval (c : BlinkConfig) : Nat := max c.blinkInterval minBlinkInterval

def BlinkConfig.timeout (c : BlinkConfig) : Nat :=
  if c.blinkTimeout = 0 then 0
  else max (c.blinkInterval * 2 * minBlinkCyclesBeforePause * 1000000) (c.blinkTimeout * 1000000000)

/-- How the search of `goto_match` ends: with a match, or without one, and then whether the
search was limited. -/
inductive SearchOutcome where
  | found
  | notFound (limited : Bool)
  deriving DecidableEq, Repr

/-- The areas of the window in which a selection scrolls. -/
structure ScrollAreas where
  endTop : Int
  startBottom : Int
  step : Int
  deriving DecidableEq, Repr

/-- Get distance from closest window boundary. -/
def ScrollAreas.delta (areas : ScrollAreas) (mouseY : Int) : Option Int :=
  if mouseY < areas.endTop then some (areas.endTop - mouseY + areas.step)
  else if areas.startBottom ≤ mouseY then some (areas.startBottom - mouseY - areas.step)
  else none

namespace Scheduler
variable [DecidableEq W] (s : Scheduler W (Event W)) (now : Nat) (w : W)

/-- Handle automatic scrolling when selecting above/below the window. -/
def updateSelectionScrolling (areas : ScrollAreas) (mouseY : Int) : Scheduler W (Event W) :=
  match areas.delta mouseY with
  | none => (s.unschedule ⟨.selectionScrolling, w⟩).2
  | some delta =>
      let event := ⟨.scroll (delta.tdiv areas.step), some w⟩
      (s.unschedule ⟨.selectionScrolling, w⟩).2.schedule now event selectionScrollingInterval true
        ⟨.selectionScrolling, w⟩

def onMouseRelease : Scheduler W (Event W) := (s.unschedule ⟨.selectionScrolling, w⟩).2

def searchResetState : Scheduler W (Event W) := (s.unschedule ⟨.delayedSearch, w⟩).2

def gotoMatch : SearchOutcome → Scheduler W (Event W)
  | .found => (s.unschedule ⟨.delayedSearch, w⟩).2
  | .notFound false => s.searchResetState w
  | .notFound true =>
      if s.scheduled ⟨.delayedSearch, w⟩ then s
      else s.schedule now ⟨.searchNext, some w⟩ typingSearchDelay false ⟨.delayedSearch, w⟩

/-- The timers of `confirm_search` in vi mode: force unlimited search if the previous one was
interrupted. -/
def confirmSearch (outcome : SearchOutcome) : Scheduler W (Event W) :=
  if s.scheduled ⟨.delayedSearch, w⟩ then s.gotoMatch now w outcome else s

def resetSearchDelay : Scheduler W (Event W) :=
  match s.unschedule ⟨.delayedSearch, w⟩ with
  | (some timer, s) => s.schedule now timer.event typingSearchDelay false timer.id
  | (none, s) => s

def scheduleBlinking (c : BlinkConfig) : Scheduler W (Event W) :=
  s.schedule now ⟨.blinkCursor, some w⟩ (c.interval * 1000000) true ⟨.blinkCursor, w⟩

def scheduleBlinkingTimeout (c : BlinkConfig) : Scheduler W (Event W) :=
  if c.timeout = 0 then s
  else s.schedule now ⟨.blinkCursorTimeout, some w⟩ c.timeout false ⟨.blinkTimeout, w⟩

/-- The timers of `update_cursor_blinking`; `blinking` is whether the cursor blinks and the
terminal is focused. -/
def updateCursorBlinking (c : BlinkConfig) (blinking : Bool) : Scheduler W (Event W) :=
  let s := (s.unschedule ⟨.blinkCursor, w⟩).2
  let s := (s.unschedule ⟨.blinkTimeout, w⟩).2
  if blinking then (s.scheduleBlinking now w c).scheduleBlinkingTimeout now w c else s

def onTypingStart (c : BlinkConfig) (blinking timedOut : Bool) : Scheduler W (Event W) :=
  match s.unschedule ⟨.blinkCursor, w⟩ with
  | (some _, s) => s.scheduleBlinking now w c
  | (none, s) => if timedOut then s.updateCursorBlinking now w c blinking else s

def onBlinkCursorTimeout : Scheduler W (Event W) := (s.unschedule ⟨.blinkCursor, w⟩).2

/-- Debounce resize events to prevent overwhelming the renderer. -/
def onResized (width height : Nat) : Scheduler W (Event W) :=
  if width = 0 ∨ height = 0 then s
  else (s.unschedule ⟨.resizeDebounce, w⟩).2.schedule now ⟨.resize width height, some w⟩
    resizeDebounceDuration false ⟨.resizeDebounce, w⟩

def requestFrame (swapTimeout : Nat) : Scheduler W (Event W) :=
  s.schedule now ⟨.frame, some w⟩ swapTimeout false ⟨.frame, w⟩

end Scheduler

/-- What the program calls its scheduler for. -/
inductive TimerCall where
  | updateSelectionScrolling (areas : ScrollAreas) (mouseY : Int)
  | onMouseRelease
  | searchResetState
  | gotoMatch (outcome : SearchOutcome)
  | confirmSearch (outcome : SearchOutcome)
  | resetSearchDelay
  | updateCursorBlinking (c : BlinkConfig) (blinking : Bool)
  | onTypingStart (c : BlinkConfig) (blinking timedOut : Bool)
  | onBlinkCursorTimeout
  | onResized (width height : Nat)
  | requestFrame (swapTimeout : Nat)
  | exit
  deriving DecidableEq, Repr

def Scheduler.perform [DecidableEq W] (s : Scheduler W (Scheduler.Event W)) (now : Nat) (w : W) :
    TimerCall → Scheduler W (Scheduler.Event W)
  | .updateSelectionScrolling areas mouseY => s.updateSelectionScrolling now w areas mouseY
  | .onMouseRelease => s.onMouseRelease w
  | .searchResetState => s.searchResetState w
  | .gotoMatch outcome => s.gotoMatch now w outcome
  | .confirmSearch outcome => s.confirmSearch now w outcome
  | .resetSearchDelay => s.resetSearchDelay now w
  | .updateCursorBlinking c blinking => s.updateCursorBlinking now w c blinking
  | .onTypingStart c blinking timedOut => s.onTypingStart now w c blinking timedOut
  | .onBlinkCursorTimeout => s.onBlinkCursorTimeout w
  | .onResized width height => s.onResized now w width height
  | .requestFrame swapTimeout => s.requestFrame now w swapTimeout
  | .exit => s.unscheduleWindow w

inductive TimerOp (W : Type) where
  | call (now : Nat) (w : W) (call : TimerCall)
  | update (clock : Nat → Nat) (fuel : Nat)

def timerStep [DecidableEq W] (s : Scheduler W (Scheduler.Event W)) : TimerOp W → Option (Scheduler W (Scheduler.Event W))
  | .call now w call => some (s.perform now w call)
  | .update clock fuel => (s.update clock fuel).map fun r => r.1

/-- The clock does not go back during an update. -/
def ClockMonotone (_ : Scheduler W (Scheduler.Event W)) : TimerOp W → Prop
  | .call _ _ _ => True
  | .update clock _ => Monotone clock

/-- The event that a timer of each topic sends, and whether it repeats. -/
def Topic.Sends : Topic → EventType → Bool → Prop
  | .selectionScrolling, payload, repeats => (∃ delta, payload = .scroll delta) ∧ repeats = true
  | .delayedSearch, payload, repeats => payload = .searchNext ∧ repeats = false
  | .blinkCursor, payload, repeats => payload = .blinkCursor ∧ repeats = true
  | .blinkTimeout, payload, repeats => payload = .blinkCursorTimeout ∧ repeats = false
  | .frame, payload, repeats => payload = .frame ∧ repeats = false
  | .resizeDebounce, payload, repeats => (∃ width height, payload = .resize width height) ∧ repeats = false

def Timer.Proper (timer : Timer W (Scheduler.Event W)) : Prop :=
  timer.event.windowId = some timer.id.windowId ∧
    timer.id.topic.Sends timer.event.payload timer.interval.isSome

def Distinct {E : Type} (timers : List (Timer W E)) : Prop :=
  timers.Pairwise fun a b => a.id = b.id → a.id.topic = .frame

/-- What the calls keep of the scheduler. -/
structure Scheduler.Orderly (s : Scheduler W (Scheduler.Event W)) : Prop where
  wf : s.WF
  distinct : Distinct s.timers
  proper : ∀ timer ∈ s.timers, timer.Proper

namespace Scheduler
variable {s s' : Scheduler W (Event W)} {now : Nat} {w : W} {id : TimerId W}

theorem Orderly.sublist (h : s.Orderly) (hs : s'.timers.Sublist s.timers) : s'.Orderly :=
  ⟨h.wf.sublist hs, h.distinct.sublist hs, fun t ht => h.proper t (hs.subset ht)⟩

theorem distinct_perm {E : Type} {timers timers' : List (Timer W E)} (h : timers.Perm timers') :
    Distinct timers ↔ Distinct timers' :=
  h.pairwise_iff fun hab heq => heq ▸ hab heq.symm

theorem Orderly.schedule (h : s.Orderly) {event : Event W} {interval : Nat} {repeats : Bool}
    (hpos : repeats = true → 0 < interval) (hwindow : event.windowId = some id.windowId)
    (hsends : id.topic.Sends event.payload repeats)
    (hnew : (∀ t ∈ s.timers, t.id ≠ id) ∨ id.topic = .frame) :
    (s.schedule now event interval repeats id).Orderly := by
  have hperm := SortedQueue.insert_perm Timer.deadline (newTimer now event interval repeats id) s.timers
  refine ⟨h.wf.schedule now event hpos id, ?_, fun t ht => ?_⟩
  · rw [schedule_timers, distinct_perm hperm]
    refine List.pairwise_cons.mpr ⟨fun t ht heq => ?_, h.distinct⟩
    exact hnew.elim (fun hnone => absurd heq.symm (hnone t ht)) fun hframe => hframe
  · rw [schedule_timers, SortedQueue.mem_insert] at ht
    rcases ht with rfl | ht
    · refine ⟨hwindow, ?_⟩
      cases repeats with
      | true => exact hsends
      | false => exact hsends
    · exact h.proper t ht

variable [DecidableEq W]

theorem Orderly.unschedule (h : s.Orderly) (id : TimerId W) : (s.unschedule id).2.Orderly :=
  h.sublist (s.unschedule_spec id).1

theorem Orderly.unschedule_none (h : s.Orderly) {topic : Topic} (hid : topic ≠ .frame) :
    ∀ t ∈ (s.unschedule ⟨topic, w⟩).2.timers, t.id ≠ ⟨topic, w⟩ := by
  obtain ⟨hsub, hperm, hgone, hnone⟩ := s.unschedule_spec ⟨topic, w⟩
  intro t ht heq
  cases hremoved : (s.unschedule ⟨topic, w⟩).1 with
  | none => exact hnone hremoved t (hsub.subset ht) heq
  | some timer =>
      rw [hremoved] at hperm hgone
      have hdistinct := (distinct_perm hperm).mpr h.distinct
      have htimer : timer.id = ⟨topic, w⟩ := hgone timer rfl
      have hframe := (List.pairwise_cons.mp hdistinct).1 t ht (htimer.trans heq.symm)
      rw [htimer] at hframe
      exact hid hframe

theorem Orderly.removed_proper (h : s.Orderly) {timer : Timer W (Event W)}
    (ht : (s.unschedule id).1 = some timer) : timer.Proper ∧ timer.id = id := by
  obtain ⟨-, hperm, hgone, -⟩ := s.unschedule_spec id
  rw [ht] at hperm hgone
  exact ⟨h.proper timer (hperm.subset List.mem_cons_self), hgone timer rfl⟩

/-- Cancelling a timer and scheduling one in its place. -/
theorem Orderly.reschedule (h : s.Orderly) {event : Event W} {interval : Nat} {repeats : Bool}
    (hpos : repeats = true → 0 < interval) (hwindow : event.windowId = some id.windowId)
    (hsends : id.topic.Sends event.payload repeats) (hid : id.topic ≠ .frame) :
    ((s.unschedule id).2.schedule now event interval repeats id).Orderly :=
  (h.unschedule id).schedule hpos hwindow hsends (.inl (h.unschedule_none hid))

theorem scheduled_eq_false : s.scheduled id = false ↔ ∀ t ∈ s.timers, t.id ≠ id := by
  simp only [scheduled, List.any_eq_false, decide_eq_true_iff, ne_eq]

theorem Orderly.gotoMatch (h : s.Orderly) (outcome : SearchOutcome) : (s.gotoMatch now w outcome).Orderly := by
  cases outcome with
  | found => exact h.unschedule _
  | notFound limited =>
      cases limited with
      | false => exact h.unschedule _
      | true =>
          simp only [Scheduler.gotoMatch]
          split
          · exact h
          · next hnone =>
              rw [Bool.not_eq_true, scheduled_eq_false] at hnone
              exact h.schedule nofun rfl ⟨rfl, rfl⟩ (.inl hnone)

theorem Orderly.resetSearchDelay (h : s.Orderly) : (s.resetSearchDelay now w).Orderly := by
  unfold Scheduler.resetSearchDelay
  split
  · next timer s' hs =>
      have hremoved := congrArg Prod.fst hs
      obtain ⟨⟨hwindow, hsends⟩, hid⟩ := h.removed_proper hremoved
      have hs' : (s.unschedule ⟨.delayedSearch, w⟩).2 = s' := congrArg Prod.snd hs
      rw [← hs', hid]
      rw [hid] at hwindow hsends
      exact h.reschedule nofun hwindow ⟨hsends.1, rfl⟩ nofun
  · next s' hs =>
      have hs' : (s.unschedule ⟨.delayedSearch, w⟩).2 = s' := congrArg Prod.snd hs
      rw [← hs']
      exact h.unschedule _

theorem blinkInterval_pos (c : BlinkConfig) : 0 < c.interval * 1000000 := by
  have hmin : minBlinkInterval ≤ c.interval := Nat.le_max_right _ _
  unfold minBlinkInterval at hmin
  omega

omit [DecidableEq W] in
theorem Orderly.scheduleBlinking (h : s.Orderly) (c : BlinkConfig)
    (hnone : ∀ t ∈ s.timers, t.id ≠ ⟨.blinkCursor, w⟩) : (s.scheduleBlinking now w c).Orderly :=
  h.schedule (fun _ => blinkInterval_pos c) rfl ⟨rfl, rfl⟩ (.inl hnone)

theorem Orderly.updateCursorBlinking (h : s.Orderly) (c : BlinkConfig) (blinking : Bool) :
    (s.updateCursorBlinking now w c blinking).Orderly := by
  have hcursor := h.unschedule ⟨.blinkCursor, w⟩
  have hboth := hcursor.unschedule ⟨.blinkTimeout, w⟩
  unfold Scheduler.updateCursorBlinking
  split
  · have hnone : ∀ t ∈ ((s.unschedule ⟨.blinkCursor, w⟩).2.unschedule ⟨.blinkTimeout, w⟩).2.timers,
        t.id ≠ ⟨.blinkCursor, w⟩ := fun t ht =>
      h.unschedule_none (by decide) t ((unschedule_spec _ _).1.subset ht)
    have hblinking : (Scheduler.scheduleBlinking _ now w c).Orderly := hboth.scheduleBlinking c hnone
    unfold Scheduler.scheduleBlinkingTimeout
    split
    · exact hblinking
    · refine hblinking.schedule nofun rfl ⟨rfl, rfl⟩ (.inl fun t ht => ?_)
      rw [Scheduler.scheduleBlinking, schedule_timers, SortedQueue.mem_insert] at ht
      rcases ht with rfl | ht
      · exact fun heq => absurd (congrArg TimerId.topic heq) (show Topic.blinkCursor ≠ .blinkTimeout by decide)
      · exact hcursor.unschedule_none (by decide) t ht
  · exact hboth

theorem Orderly.onTypingStart (h : s.Orderly) (c : BlinkConfig) (blinking timedOut : Bool) :
    (s.onTypingStart now w c blinking timedOut).Orderly := by
  unfold Scheduler.onTypingStart
  split
  · next timer s' hs =>
      have hs' : (s.unschedule ⟨.blinkCursor, w⟩).2 = s' := congrArg Prod.snd hs
      rw [← hs']
      exact (h.unschedule _).scheduleBlinking c (h.unschedule_none (by decide))
  · next s' hs =>
      have hs' : (s.unschedule ⟨.blinkCursor, w⟩).2 = s' := congrArg Prod.snd hs
      rw [← hs']
      split
      · exact (h.unschedule _).updateCursorBlinking c blinking
      · exact h.unschedule _

theorem Orderly.updateSelectionScrolling (h : s.Orderly) (areas : ScrollAreas) (mouseY : Int) :
    (s.updateSelectionScrolling now w areas mouseY).Orderly := by
  unfold Scheduler.updateSelectionScrolling
  split
  · exact h.unschedule _
  · exact h.reschedule (fun _ => by decide) rfl ⟨⟨_, rfl⟩, rfl⟩ nofun

theorem Orderly.perform (h : s.Orderly) (call : TimerCall) : (s.perform now w call).Orderly := by
  cases call with
  | updateSelectionScrolling areas mouseY => exact h.updateSelectionScrolling areas mouseY
  | onMouseRelease => exact h.unschedule _
  | searchResetState => exact h.unschedule _
  | gotoMatch outcome => exact h.gotoMatch outcome
  | confirmSearch outcome =>
      simp only [Scheduler.perform, confirmSearch]
      split
      · exact h.gotoMatch outcome
      · exact h
  | resetSearchDelay => exact h.resetSearchDelay
  | updateCursorBlinking c blinking => exact h.updateCursorBlinking c blinking
  | onTypingStart c blinking timedOut => exact h.onTypingStart c blinking timedOut
  | onBlinkCursorTimeout => exact h.unschedule _
  | onResized width height =>
      simp only [Scheduler.perform, onResized]
      split
      · exact h
      · exact h.reschedule nofun rfl ⟨⟨_, _, rfl⟩, rfl⟩ nofun
  | requestFrame swapTimeout => exact h.schedule nofun rfl ⟨rfl, rfl⟩ (.inr rfl)
  | exit => exact h.sublist (unscheduleWindow_sublist w)

omit [DecidableEq W] in
/-- What is scheduled again has the ids of what was due. -/
theorem distinct_requeued (clock : Nat → Nat) {due late : List (Timer W (Event W))}
    (hpos : Repeats due) (h : Distinct (due ++ late)) : Distinct (requeued clock 0 due ++ late) := by
  obtain ⟨hdue, hlate, hcross⟩ := List.pairwise_append.mp h
  refine List.pairwise_append.mpr ⟨List.pairwise_filterMap.mpr ?_, hlate, fun a ha b hb heq => ?_⟩
  · have hzip : (due.zipIdx.map Prod.fst).Pairwise fun a b => a.id = b.id → a.id.topic = .frame := by
      rwa [List.zipIdx_map_fst]
    refine (List.pairwise_map.mp hzip).imp_of_mem fun {p q} hp hq hpq a ha b hb heq => ?_
    have hpid := (again_deadline (hpos _ ((List.mem_zipIdx hp).2.2 ▸ List.getElem_mem _)) ha).2.2.1
    have hqid := (again_deadline (hpos _ ((List.mem_zipIdx hq).2.2 ▸ List.getElem_mem _)) hb).2.2.1
    rw [hpid]
    exact hpq (hpid.symm.trans (heq.trans hqid))
  · obtain ⟨timer, htimer, j, hagain⟩ := mem_requeued ha
    have hid := (again_deadline (hpos timer htimer) hagain).2.2.1
    rw [hid]
    exact hcross timer htimer b hb (hid.symm.trans heq)

omit [DecidableEq W] in
theorem Orderly.updated (h : s.Orderly) (clock : Nat → Nat) : (s.updated clock).Orderly := by
  have hperm : (s.updated clock).timers.Perm (requeued (fun i => clock (i + 1)) 0 (s.due (clock 0)) ++
      s.timers.filter fun timer => decide (clock 0 < timer.deadline)) := SortedQueue.insertAll_perm _ _
  have hrepeats : Repeats (s.due (clock 0)) := fun t ht => h.wf.repeats t (List.mem_of_mem_filter ht)
  refine ⟨h.wf.updated clock, (distinct_perm hperm).mpr (distinct_requeued _ hrepeats ?_), fun t ht => ?_⟩
  · rw [due_append_late h.wf]
    exact h.distinct
  · rcases List.mem_append.mp (hperm.mem_iff.mp ht) with ht | ht
    · obtain ⟨timer, htimer, j, hagain⟩ := mem_requeued ht
      obtain ⟨-, hinterval, hid, hevent⟩ := again_deadline (hrepeats timer htimer) hagain
      rw [Timer.Proper, hinterval, hid, hevent]
      exact h.proper timer (List.mem_of_mem_filter htimer)
    · exact h.proper t (List.mem_of_mem_filter ht)

/-- In every run of the program's calls, a window has at most one timer of each topic other than
frames, so that cancelling a timer cancels it for good, and a timer only ever sends the event of its
topic to its window. -/
theorem run_orderly (h : Reaches timerStep ClockMonotone (new : Scheduler W (Event W)) s) :
    s.WF ∧ (∀ timer ∈ s.timers, timer.Proper) ∧ ∀ id : TimerId W, id.topic ≠ .frame →
      (s.timers.filter fun timer => decide (timer.id = id)).length ≤ 1 ∧
      (s.unschedule id).2.scheduled id = false := by
  have horderly : s.Orderly := by
    refine h.invariant ⟨⟨List.Pairwise.nil, nofun⟩, List.Pairwise.nil, nofun⟩ fun s op s' hs hok hstep => ?_
    cases op with
    | call now w call =>
        cases hstep
        exact hs.perform call
    | update clock fuel =>
        simp only [timerStep, Option.map_eq_some_iff] at hstep
        obtain ⟨r, hr, rfl⟩ := hstep
        rw [update_eq hs.wf hok, Option.ite_none_right_eq_some] at hr
        cases hr.2
        exact hs.updated clock
  refine ⟨horderly.wf, horderly.proper, fun id hid => ⟨?_, ?_⟩⟩
  · have hnone : (s.timers.filter fun timer => decide (timer.id = id)).Pairwise fun _ _ => False := by
      refine (horderly.distinct.filter _).imp_of_mem fun {a b} ha hb hab => ?_
      have ha' := decide_eq_true_iff.mp (List.mem_filter.mp ha).2
      have hb' := decide_eq_true_iff.mp (List.mem_filter.mp hb).2
      exact hid (ha' ▸ hab (ha'.trans hb'.symm))
    cases hlist : s.timers.filter fun timer => decide (timer.id = id) with
    | nil => exact Nat.zero_le _
    | cons a rest =>
        rw [hlist] at hnone
        cases rest with
        | nil => exact Nat.le_refl _
        | cons b rest => exact ((List.pairwise_cons.mp hnone).1 b List.mem_cons_self).elim
  · exact scheduled_eq_false.mpr (horderly.unschedule_none hid)

/-- A blinking cursor while the user types. -/
theorem run_orderly_blinking :
    let s : Scheduler Nat (Event Nat) := (new.perform 0 3 (.updateCursorBlinking ⟨750, 5⟩ true)).perform
      100000 3 (.onTypingStart ⟨750, 5⟩ true false)
    (s.timers.filter fun timer => decide (timer.id = ⟨.blinkCursor, 3⟩)).length ≤ 1 :=
  ((run_orderly (.step (.step .refl trivial (a := .call 0 3 _) rfl) trivial
    (a := .call 100000 3 _) rfl)).2.2 ⟨.blinkCursor, 3⟩ (by decide)).1

end Scheduler
end Velacritty

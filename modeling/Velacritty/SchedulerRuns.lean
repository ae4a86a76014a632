import Mathlib.Data.List.Perm.Basic
import Mathlib.Order.Monotone.Basic
import Velacritty.Scheduler

/-! Runs of the scheduler: what is pending, what was sent and when, what was cancelled. -/
namespace Velacritty.Scheduler
open Fallible
variable {W E : Type} {s s' : Scheduler W E} {now : Nat}

/-- The timer that a call of `schedule` adds. -/
def newTimer (now : Nat) (event : E) (interval : Nat) (repeats : Bool) (id : TimerId W) : Timer W E :=
  ⟨now + interval, event, id, if repeats then some interval else none⟩

theorem schedule_timers (event : E) (interval : Nat) (repeats : Bool) (id : TimerId W) :
    (s.schedule now event interval repeats id).timers =
      SortedQueue.insert Timer.deadline (newTimer now event interval repeats id) s.timers := rfl

/-- A repeating timer, scheduled again. -/
def again (timer : Timer W E) (now : Nat) : Option (Timer W E) :=
  timer.interval.map fun interval => newTimer now timer.event interval true timer.id

/-- What a call of `update` schedules again for the timers that are due. -/
def requeued (clock : Nat → Nat) (i : Nat) (due : List (Timer W E)) : List (Timer W E) :=
  (due.zipIdx i).filterMap fun p => again p.1 (clock p.2)

def Repeats (timers : List (Timer W E)) : Prop :=
  ∀ timer ∈ timers, ∀ interval, timer.interval = some interval → 0 < interval

theorem again_deadline {timer t : Timer W E} (hpos : ∀ interval, timer.interval = some interval → 0 < interval)
    (h : again timer now = some t) : now < t.deadline ∧ t.interval = timer.interval ∧ t.id = timer.id ∧
      t.event = timer.event := by
  simp only [again, Option.map_eq_some_iff] at h
  obtain ⟨interval, hinterval, rfl⟩ := h
  refine ⟨?_, hinterval.symm, rfl, rfl⟩
  have hlt := hpos interval hinterval
  simp only [newTimer]
  omega

theorem requeued_cons (clock : Nat → Nat) (i : Nat) (timer : Timer W E) (due : List (Timer W E)) :
    requeued clock i (timer :: due) = (again timer (clock i)).toList ++ requeued clock (i + 1) due := by
  simp only [requeued, List.zipIdx_cons, List.filterMap_cons]
  cases again timer (clock i) with
  | none => rfl
  | some t => rfl

theorem mem_requeued {clock : Nat → Nat} {i : Nat} {due : List (Timer W E)} {t : Timer W E}
    (h : t ∈ requeued clock i due) : ∃ timer ∈ due, ∃ j, again timer (clock j) = some t := by
  obtain ⟨⟨timer, j⟩, hmem, hagain⟩ := List.mem_filterMap.mp h
  exact ⟨timer, (List.mem_zipIdx hmem).2.2 ▸ List.getElem_mem _, j, hagain⟩

/-- The loop sends the events at the front and schedules those that repeat again; nothing
that it schedules is due. -/
theorem updateLoop_eq {clock : Nat → Nat} (hclock : ∀ i, now ≤ clock i) (due rest : List (Timer W E))
    (hdue : ∀ t ∈ due, t.deadline ≤ now) (hrest : ∀ t ∈ rest, now < t.deadline) (hpos : Repeats due)
    (fuel i : Nat) : updateLoop now clock fuel i ⟨due ++ rest⟩ =
      if due.length < fuel then
        some (⟨SortedQueue.insertAll Timer.deadline (requeued clock i due) rest⟩, due.map Timer.event)
      else none := by
  induction due generalizing rest fuel i with
  | nil =>
      cases fuel with
      | zero => rfl
      | succ fuel =>
          rw [List.length_nil, if_pos (Nat.succ_pos fuel)]
          cases rest with
          | nil => rfl
          | cons timer rest =>
              have hlate := hrest timer List.mem_cons_self
              rw [List.nil_append, updateLoop]
              simp only
              rw [if_neg (Nat.not_le_of_lt hlate)]
              rfl
  | cons timer due ih =>
      obtain ⟨hfirst, hdue⟩ := List.forall_mem_cons.mp hdue
      obtain ⟨hinterval, hpos⟩ := List.forall_mem_cons.mp hpos
      cases fuel with
      | zero => rfl
      | succ fuel =>
          rw [List.cons_append, updateLoop, requeued_cons]
          simp only [if_pos hfirst, List.length_cons, Nat.add_lt_add_iff_right]
          cases hi : timer.interval with
          | none =>
              have hagain : again timer (clock i) = none := by rw [again, hi]; rfl
              rw [hagain, ih rest hdue hrest hpos fuel (i + 1), apply_ite (Option.map _)]
              rfl
          | some interval =>
              have hagain : again timer (clock i) =
                  some (newTimer (clock i) timer.event interval true timer.id) := by rw [again, hi]; rfl
              have hlate : now < (newTimer (clock i) timer.event interval true timer.id).deadline :=
                Nat.lt_of_le_of_lt (hclock i) (again_deadline hinterval hagain).1
              have hinsert : schedule ⟨due ++ rest⟩ (clock i) timer.event interval true timer.id =
                  ⟨due ++ SortedQueue.insert Timer.deadline
                    (newTimer (clock i) timer.event interval true timer.id) rest⟩ := by
                refine congrArg Scheduler.mk (Eq.trans (schedule_timers ..) ?_)
                exact SortedQueue.insert_append fun t ht => Nat.le_trans (hdue t ht) (Nat.le_of_lt hlate)
              simp only
              rw [hinsert, hagain, ih _ hdue (fun t ht => ?_) hpos fuel (i + 1), apply_ite (Option.map _)]
              · rfl
              · rcases SortedQueue.mem_insert.mp ht with rfl | ht
                · exact hlate
                · exact hrest t ht

structure WF (s : Scheduler W E) : Prop where
  sorted : SortedQueue.Sorted Timer.deadline s.timers
  repeats : Repeats s.timers

/-- What `update` sends at `now`. -/
def due (s : Scheduler W E) (now : Nat) : List (Timer W E) :=
  s.timers.filter fun timer => decide (timer.deadline ≤ now)

def updated (s : Scheduler W E) (clock : Nat → Nat) : Scheduler W E :=
  ⟨SortedQueue.insertAll Timer.deadline (requeued (fun i => clock (i + 1)) 0 (s.due (clock 0)))
    (s.timers.filter fun timer => decide (clock 0 < timer.deadline))⟩

theorem due_append_late (h : s.WF) (now : Nat) :
    s.due now ++ s.timers.filter (fun timer => decide (now < timer.deadline)) = s.timers := by
  rw [due, ← h.sorted.takeWhile_le, ← h.sorted.dropWhile_le]
  exact List.takeWhile_append_dropWhile

theorem due_le {timer : Timer W E} (h : timer ∈ s.due now) : timer.deadline ≤ now :=
  decide_eq_true_iff.mp (List.mem_filter.mp h).2

/-- The call returns if it may send all that is due. -/
theorem update_eq (h : s.WF) {clock : Nat → Nat} (hclock : Monotone clock) (fuel : Nat) :
    s.update clock fuel = if (s.due (clock 0)).length < fuel then
      some (s.updated clock, (s.updated clock).timers.head?.map Timer.deadline,
        (s.due (clock 0)).map Timer.event) else none := by
  have hloop := updateLoop_eq (fun i => hclock (Nat.zero_le (i + 1))) (s.due (clock 0))
    (s.timers.filter fun timer => decide (clock 0 < timer.deadline)) (fun t ht => due_le ht)
    (fun t ht => decide_eq_true_iff.mp (List.mem_filter.mp ht).2)
    (fun t ht => h.repeats t (List.mem_of_mem_filter ht)) fuel 0
  rw [due_append_late h] at hloop
  rw [update, hloop, apply_ite (Option.map _)]
  rfl

theorem updated_late (h : s.WF) {clock : Nat → Nat} (hclock : Monotone clock) :
    ∀ t ∈ (s.updated clock).timers, clock 0 < t.deadline := by
  intro t ht
  rcases List.mem_append.mp ((SortedQueue.insertAll_perm _ _).mem_iff.mp ht) with ht | ht
  · obtain ⟨timer, htimer, j, hagain⟩ := mem_requeued ht
    have hlate := (again_deadline (h.repeats timer (List.mem_of_mem_filter htimer)) hagain).1
    exact Nat.lt_of_le_of_lt (hclock (Nat.zero_le _)) hlate
  · exact decide_eq_true_iff.mp (List.mem_filter.mp ht).2

theorem WF.updated (h : s.WF) (clock : Nat → Nat) : (s.updated clock).WF := by
  refine ⟨(h.sorted.filter _).insertAll _, fun t ht => ?_⟩
  rcases List.mem_append.mp ((SortedQueue.insertAll_perm _ _).mem_iff.mp ht) with ht | ht
  · obtain ⟨timer, htimer, j, hagain⟩ := mem_requeued ht
    have hpos := h.repeats timer (List.mem_of_mem_filter htimer)
    rw [(again_deadline hpos hagain).2.1]
    exact hpos
  · exact h.repeats t (List.mem_of_mem_filter ht)

theorem WF.schedule (h : s.WF) (now : Nat) (event : E) {interval : Nat} {repeats : Bool}
    (hpos : repeats = true → 0 < interval) (id : TimerId W) :
    (s.schedule now event interval repeats id).WF := by
  refine ⟨h.sorted.insert _, fun t ht => ?_⟩
  rw [schedule_timers, SortedQueue.mem_insert] at ht
  rcases ht with rfl | ht
  · intro i hi
    cases repeats with
    | false => cases hi
    | true => exact Option.some.inj hi ▸ hpos rfl
  · exact h.repeats t ht

theorem WF.sublist (h : s.WF) (hs : s'.timers.Sublist s.timers) : s'.WF :=
  ⟨h.sorted.sublist hs, fun t ht => h.repeats t (hs.subset ht)⟩

theorem unscheduleWindow_sublist [DecidableEq W] (windowId : W) :
    (s.unscheduleWindow windowId).timers.Sublist s.timers := List.filter_sublist

theorem unschedule_spec [DecidableEq W] (s : Scheduler W E) (id : TimerId W) :
    (s.unschedule id).2.timers.Sublist s.timers ∧
      ((s.unschedule id).1.toList ++ (s.unschedule id).2.timers).Perm s.timers ∧
      (∀ t ∈ (s.unschedule id).1, t.id = id) ∧
      ((s.unschedule id).1 = none → ∀ t ∈ s.timers, t.id ≠ id) := by
  unfold unschedule
  split
  · next index hindex =>
      obtain ⟨hlt, hid, -⟩ := List.findIdx?_eq_some_iff_getElem.mp hindex
      rw [List.getElem?_eq_getElem hlt]
      refine ⟨List.eraseIdx_sublist _ _, List.getElem_cons_eraseIdx_perm hlt, fun t ht => ?_, nofun⟩
      rw [← Option.mem_some.mp ht]
      exact decide_eq_true_iff.mp hid
  · next hindex =>
      refine ⟨List.Sublist.refl _, .refl _, nofun, fun _ t ht => ?_⟩
      exact decide_eq_false_iff_not.mp (List.findIdx?_eq_none_iff.mp hindex t ht)

/-! ### Runs -/

/-- The scheduler, the last reading of the clock, the events that were sent, and three logs: every
timer scheduled (also those that repeat), every timer that was due with the time it was sent at, and
every timer cancelled. -/
structure World (W E : Type) where
  scheduler : Scheduler W E
  clock : Nat
  sent : List E
  log : List (Timer W E)
  fired : List (Nat × Timer W E)
  cancelled : List (Timer W E)

def World.start : World W E := ⟨new, 0, [], [], [], []⟩

inductive Op (W E : Type) where
  | schedule (now : Nat) (event : E) (interval : Nat) (repeats : Bool) (id : TimerId W)
  | unschedule (id : TimerId W)
  | unscheduleWindow (windowId : W)
  | update (clock : Nat → Nat) (fuel : Nat)

def step [DecidableEq W] (w : World W E) : Op W E → Option (World W E)
  | .schedule now event interval repeats id => some { w with
      scheduler := w.scheduler.schedule now event interval repeats id
      clock := now
      log := w.log ++ [newTimer now event interval repeats id] }
  | .unschedule id => some { w with
      scheduler := (w.scheduler.unschedule id).2
      cancelled := w.cancelled ++ (w.scheduler.unschedule id).1.toList }
  | .unscheduleWindow windowId => some { w with
      scheduler := w.scheduler.unscheduleWindow windowId
      cancelled := w.cancelled ++
        w.scheduler.timers.filter fun timer => decide (timer.id.windowId = windowId) }
  | .update clock fuel =>
      let due := w.scheduler.due (clock 0)
      (w.scheduler.update clock fuel).map fun (s, _, sent) => { w with
        scheduler := s
        clock := clock due.length
        sent := w.sent ++ sent
        log := w.log ++ requeued (fun i => clock (i + 1)) 0 due
        fired := w.fired ++ due.map fun timer => (clock 0, timer) }

/-- The clock does not go back, and what repeats does so after a while. -/
def Admits (w : World W E) : Op W E → Prop
  | .schedule now _ interval repeats _ => w.clock ≤ now ∧ (repeats = true → 0 < interval)
  | .update clock _ => w.clock ≤ clock 0 ∧ Monotone clock
  | _ => True

/-- The timers sent, then those pending. -/
def World.sequence (w : World W E) : List (Timer W E) := w.fired.map Prod.snd ++ w.scheduler.timers

def withDeadline (deadline : Nat) (timers : List (Timer W E)) : List (Timer W E) :=
  timers.filter fun timer => decide (timer.deadline = deadline)

/-- Every timer scheduled was sent once, is pending, or was cancelled. None was sent before its
deadline; all are sent in the order of their deadlines, and in the order they were scheduled in
where these are equal. -/
structure Accounts (w : World W E) : Prop where
  repeats : Repeats w.scheduler.timers
  sent : w.sent = w.fired.map fun e => e.2.event
  accounted : (w.sequence ++ w.cancelled).Perm w.log
  late : ∀ e ∈ w.fired, e.2.deadline ≤ e.1 ∧ e.1 ≤ w.clock
  ordered : SortedQueue.Sorted Timer.deadline w.sequence
  inOrder : ∀ deadline, (withDeadline deadline w.sequence).Sublist (withDeadline deadline w.log)

theorem Accounts.wf {w : World W E} (h : Accounts w) : w.scheduler.WF :=
  ⟨h.ordered.sublist (List.sublist_append_right _ _), h.repeats⟩

theorem Accounts.fired_le {w : World W E} (h : Accounts w) : ∀ t ∈ w.fired.map Prod.snd, t.deadline ≤ w.clock := by
  intro t ht
  obtain ⟨e, he, rfl⟩ := List.mem_map.mp ht
  exact Nat.le_trans (h.late e he).1 (h.late e he).2

/-- New timers find their place among those sent and those pending. -/
theorem Accounts.scheduled {w w' : World W E} (h : Accounts w) (new : List (Timer W E))
    (hrepeats : Repeats w'.scheduler.timers)
    (hsequence : w'.sequence = SortedQueue.insertAll Timer.deadline new w.sequence)
    (hlog : w'.log = w.log ++ new) (hcancelled : w'.cancelled = w.cancelled)
    (hsent : w'.sent = w'.fired.map fun e => e.2.event)
    (hlate : ∀ e ∈ w'.fired, e.2.deadline ≤ e.1 ∧ e.1 ≤ w'.clock) : Accounts w' := by
  refine ⟨hrepeats, hsent, ?_, hlate, ?_, fun deadline => ?_⟩
  · rw [hsequence, hlog, hcancelled]
    refine ((SortedQueue.insertAll_perm new w.sequence).append_right _).trans ?_
    rw [List.append_assoc]
    exact (List.perm_append_comm).trans (h.accounted.append_right new)
  · rw [hsequence]
    exact h.ordered.insertAll new
  · rw [withDeadline, hsequence, SortedQueue.filter_insertAll h.ordered, hlog, withDeadline, List.filter_append]
    exact (h.inOrder deadline).append_right _

theorem Accounts.removed {w w' : World W E} (h : Accounts w) {gone : List (Timer W E)}
    (hsub : w'.scheduler.timers.Sublist w.scheduler.timers)
    (hgone : (w'.scheduler.timers ++ gone).Perm w.scheduler.timers) (hfired : w'.fired = w.fired)
    (hsent : w'.sent = w.sent) (hlog : w'.log = w.log) (hclock : w'.clock = w.clock) (hcancelled : w'.cancelled = w.cancelled ++ gone) :
    Accounts w' := by
  have hsequence : w'.sequence.Sublist w.sequence := by
    rw [World.sequence, hfired]
    exact hsub.append_left _
  refine ⟨fun t ht => h.repeats t (hsub.subset ht), ?_, ?_, ?_, h.ordered.sublist hsequence, fun deadline => ?_⟩
  · rw [hsent, hfired]
    exact h.sent
  · rw [hlog, hcancelled]
    refine .trans ?_ h.accounted
    rw [World.sequence, World.sequence, hfired, List.append_assoc, List.append_assoc]
    refine .append_left _ ?_
    refine .trans ?_ (hgone.append_right w.cancelled)
    rw [List.append_assoc]
    exact .append_left _ List.perm_append_comm
  · rw [hfired, hclock]
    exact h.late
  · rw [hlog]
    exact (hsequence.filter _).trans (h.inOrder deadline)

variable [DecidableEq W] {w w' : World W E}

theorem Accounts.schedule (h : Accounts w) {event : E} {interval : Nat} {repeats : Bool} {id : TimerId W}
    (hok : Admits w (.schedule now event interval repeats id))
    (hstep : step w (.schedule now event interval repeats id) = some w') : Accounts w' := by
  cases hstep
  obtain ⟨hclock, hpos⟩ := hok
  refine h.scheduled [newTimer now event interval repeats id] ?_ ?_ rfl rfl h.sent fun e he => ?_
  · exact (h.wf.schedule now event hpos id).repeats
  · refine Eq.symm (SortedQueue.insertAll_append (fun a ha t ht => ?_) w.scheduler.timers)
    rw [List.mem_singleton.mp ha]
    exact Nat.le_trans (h.fired_le t ht) (Nat.le_trans hclock (Nat.le_add_right _ _))
  · exact ⟨(h.late e he).1, Nat.le_trans (h.late e he).2 hclock⟩

theorem Accounts.update (h : Accounts w) {clock : Nat → Nat} {fuel : Nat}
    (hok : Admits w (.update clock fuel)) (hstep : step w (.update clock fuel) = some w') :
    Accounts w' := by
  obtain ⟨hclock, hmono⟩ := hok
  simp only [step, Option.map_eq_some_iff] at hstep
  obtain ⟨⟨s, next, sent⟩, hs, rfl⟩ := hstep
  rw [update_eq h.wf hmono, Option.ite_none_right_eq_some] at hs
  cases hs.2
  have hend : clock 0 ≤ clock (w.scheduler.due (clock 0)).length := hmono (Nat.zero_le _)
  refine h.scheduled (requeued (fun i => clock (i + 1)) 0 (w.scheduler.due (clock 0)))
    (h.wf.updated clock).repeats ?_ rfl rfl ?_ fun e he => ?_
  · -- All that was sent up to now is due.
    have hfront : ∀ a ∈ requeued (fun i => clock (i + 1)) 0 (w.scheduler.due (clock 0)),
        ∀ t ∈ w.fired.map Prod.snd ++ w.scheduler.due (clock 0), t.deadline ≤ a.deadline := by
      intro a ha t ht
      obtain ⟨timer, htimer, j, hagain⟩ := mem_requeued ha
      have hlate := (again_deadline (h.repeats timer (List.mem_of_mem_filter htimer)) hagain).1
      have hnow : clock 0 ≤ a.deadline := Nat.le_trans (hmono (Nat.zero_le (j + 1))) (Nat.le_of_lt hlate)
      rcases List.mem_append.mp ht with ht | ht
      · exact Nat.le_trans (h.fired_le t ht) (Nat.le_trans hclock hnow)
      · exact Nat.le_trans (due_le ht) hnow
    have hsplit : w.sequence = (w.fired.map Prod.snd ++ w.scheduler.due (clock 0)) ++
        w.scheduler.timers.filter fun timer => decide (clock 0 < timer.deadline) := by
      rw [List.append_assoc, due_append_late h.wf]
      rfl
    rw [hsplit, SortedQueue.insertAll_append hfront, World.sequence, List.map_append, List.map_map]
    refine congrArg (w.fired.map Prod.snd ++ · ++ _) ?_
    exact List.map_id _
  · rw [List.map_append, List.map_map, ← h.sent]
    rfl
  · rcases List.mem_append.mp he with he | he
    · exact ⟨(h.late e he).1, Nat.le_trans (h.late e he).2 (Nat.le_trans hclock hend)⟩
    · obtain ⟨timer, htimer, rfl⟩ := List.mem_map.mp he
      exact ⟨due_le htimer, hend⟩

theorem Accounts.step {op : Op W E} (h : Accounts w) (hok : Admits w op) (hstep : step w op = some w') :
    Accounts w' := by
  cases op with
  | schedule now event interval repeats id => exact h.schedule hok hstep
  | unschedule id =>
      cases hstep
      obtain ⟨hsub, hperm, -⟩ := w.scheduler.unschedule_spec id
      exact h.removed hsub (List.perm_append_comm.trans hperm) rfl rfl rfl rfl rfl
  | unscheduleWindow windowId =>
      cases hstep
      refine h.removed (unscheduleWindow_sublist windowId) ?_ rfl rfl rfl rfl rfl
      refine List.perm_append_comm.trans (.trans ?_ (List.filter_append_perm
        (fun timer => decide (timer.id.windowId = windowId)) w.scheduler.timers))
      refine .append_left _ (.of_eq (List.filter_congr fun timer _ => ?_))
      exact decide_not
  | update clock fuel => exact h.update hok hstep

/-- In every run each timer scheduled is accounted for. -/
theorem run_accounts (h : Reaches step Admits (World.start : World W E) w) : Accounts w :=
  h.invariant ⟨nofun, rfl, .refl _, nofun, List.Pairwise.nil, fun _ => .refl _⟩
    fun _ _ _ hw hok hstep => hw.step hok hstep

/-- A timer that was sent, and one that is pending. -/
theorem run_accounts_two : Accounts (⟨⟨[⟨30, 'b', ⟨.frame, 0⟩, none⟩]⟩, 12, ['a'], [⟨30, 'b', ⟨.frame, 0⟩, none⟩,
    ⟨11, 'a', ⟨.delayedSearch, 0⟩, none⟩], [(12, ⟨11, 'a', ⟨.delayedSearch, 0⟩, none⟩)], []⟩ :
    World Nat Char) :=
  run_accounts (.step (.step (.step .refl (a := .schedule 0 'b' 30 false ⟨.frame, 0⟩) ⟨Nat.le_refl _, nofun⟩ rfl)
    (a := .schedule 1 'a' 10 false ⟨.delayedSearch, 0⟩) ⟨Nat.zero_le _, nofun⟩ rfl)
    (a := .update (fun _ => 12) 2) ⟨by decide, monotone_const⟩ rfl)

/-- In every run, `update` sends the events of the timers that are due, in the order of their
deadlines, leaves none that is due, and returns the closest deadline of those left. -/
theorem run_update (h : Reaches step Admits (World.start : World W E) w) {clock : Nat → Nat}
    (hclock : Monotone clock) {fuel : Nat} (hfuel : w.scheduler.timers.length < fuel) :
    ∃ s next, w.scheduler.update clock fuel = some (s, next, (w.scheduler.due (clock 0)).map Timer.event) ∧
      SortedQueue.Sorted Timer.deadline (w.scheduler.due (clock 0)) ∧
      (∀ t ∈ w.scheduler.timers, clock 0 < t.deadline → t ∈ s.timers) ∧
      (∀ t ∈ s.timers, clock 0 < t.deadline) ∧ (next = none ↔ s.timers = []) ∧
      ∀ deadline ∈ next, (∃ t ∈ s.timers, t.deadline = deadline) ∧ ∀ t ∈ s.timers, deadline ≤ t.deadline := by
  have hwf := (run_accounts h).wf
  have hdue : (w.scheduler.due (clock 0)).length < fuel :=
    Nat.lt_of_le_of_lt (List.length_filter_le _ _) hfuel
  have hsorted := (hwf.updated clock).sorted
  refine ⟨_, _, (update_eq hwf hclock fuel).trans (if_pos hdue), hwf.sorted.filter _, fun t ht hlate => ?_,
    updated_late hwf hclock, ?_, fun deadline hnext => ?_⟩
  · refine (SortedQueue.insertAll_perm _ _).mem_iff.mpr (List.mem_append_right _ ?_)
    exact List.mem_filter.mpr ⟨ht, decide_eq_true hlate⟩
  · rw [Option.map_eq_none_iff, List.head?_eq_none_iff]
  · obtain ⟨t, ht, rfl⟩ := Option.map_eq_some_iff.mp hnext
    obtain ⟨rest, hrest⟩ := List.head?_eq_some_iff.mp ht
    rw [hrest] at hsorted ⊢
    refine ⟨⟨t, List.mem_cons_self, rfl⟩, fun t' ht' => ?_⟩
    rcases List.mem_cons.mp ht' with rfl | ht'
    · exact Nat.le_refl _
    · exact List.rel_of_pairwise_cons hsorted ht'

/-- Of four timers two are due, one of which repeats. -/
theorem run_update_due : ∃ (w : World Nat Char) (s : Scheduler Nat Char) (next : Option Nat),
    w.scheduler.timers.map Timer.deadline = [11, 12, 30, 40] ∧
      w.scheduler.update (fun i => 12 + i) 5 = some (s, next, ['b', 'a']) ∧
      s.timers.map Timer.deadline = [19, 30, 40] := by
  obtain ⟨w, hw, hdeadlines⟩ : ∃ w, Reaches step Admits (World.start : World Nat Char) w ∧
      w.scheduler.timers = [⟨11, 'b', ⟨.delayedSearch, 0⟩, none⟩, ⟨12, 'a', ⟨.blinkCursor, 0⟩, some 5⟩,
        ⟨30, 'c', ⟨.frame, 0⟩, none⟩, ⟨40, 'd', ⟨.frame, 1⟩, none⟩] :=
    ⟨_, .step (.step (.step (.step .refl
      (a := .schedule 0 'd' 40 false ⟨.frame, 1⟩) ⟨Nat.le_refl _, nofun⟩ rfl)
      (a := .schedule 0 'c' 30 false ⟨.frame, 0⟩) ⟨Nat.le_refl _, nofun⟩ rfl)
      (a := .schedule 7 'a' 5 true ⟨.blinkCursor, 0⟩) ⟨Nat.zero_le _, fun _ => by decide⟩ rfl)
      (a := .schedule 8 'b' 3 false ⟨.delayedSearch, 0⟩) ⟨by decide, nofun⟩ rfl, rfl⟩
  have hclock : Monotone fun i : Nat => 12 + i := fun _ _ h => Nat.add_le_add_left h 12
  have hfuel : w.scheduler.timers.length < 5 := by
    rw [hdeadlines]
    decide
  obtain ⟨s, next, h, -⟩ := run_update hw hclock hfuel
  obtain ⟨scheduler, _⟩ := w
  obtain ⟨timers⟩ := scheduler
  obtain rfl : timers = _ := hdeadlines
  refine ⟨_, s, next, rfl, h, ?_⟩
  cases h
  rfl

end Velacritty.Scheduler

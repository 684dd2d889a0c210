-- Starts with feedback. A load that limits the permits and takes no pauses lets
-- the starter wait for nothing but a permit. So an action that has not started
-- yet waits only while all permits are held by actions that run, whichever of
-- them crash in the end. With one permit the actions run one after another.
import ReplicaLoad.Proofs.TrialCourse

namespace ReplicaLoad

/-- A pacing that takes no pauses and has a number of permits. -/
structure Pacing.Limits (p : Pacing) (n : Nat) : Prop where
  pause : ∀ i, p.pause i = 0
  permits : p.permits = some n
  pos : 0 < n

theorem Pacing.Limits.permits_ne_zero {p : Pacing} {n : Nat} (hp : p.Limits n) :
    p.permits ≠ some 0 := by
  rw [hp.permits]
  exact fun h => hp.pos.ne' (Option.some.inj h)

/-! ## Actions in flight -/

namespace TrialLog

variable (log : TrialLog)

theorem maxInFlight_push (e : TrialEvent) :
    (log.push e).maxInFlight = max log.maxInFlight (log.push e).inFlight := by
  have hbefore : (List.range (log.events.length + 1)).map
      (fun k => inFlight ⟨(log.events ++ [e]).take k⟩) =
        (List.range (log.events.length + 1)).map fun k => inFlight ⟨log.events.take k⟩ := by
    refine List.map_congr_left fun k hk => ?_
    rw [List.take_append_of_le_length (Nat.le_of_lt_succ (List.mem_range.mp hk))]
  have hlast : (log.events ++ [e]).take (log.events.length + 1) = log.events ++ [e] :=
    List.take_of_length_le (by simp)
  unfold maxInFlight
  rw [events_push, List.length_append, List.length_singleton, List.range_succ, List.map_append,
    hbefore, List.foldl_append, List.map_singleton, List.foldl_cons, List.foldl_nil, hlast]
  rfl

end TrialLog

namespace Solo

variable {w : Workload} {p : Pacing} {n : Nat} {s s' : TrialState}

/-- The actions in flight are those that have still to end. -/
theorem Balanced.inFlight_eq (h : s.Balanced w) : s.world.inFlight = s.due.length := by
  have hlength := h.length_eq
  rw [List.length_append, List.length_map] at hlength
  unfold TrialLog.inFlight
  omega

/-- Every permit is free or held by an action, and only actions sleep. -/
structure Limited (n : Nat) (s : TrialState) : Prop where
  permits : ∃ free, s.lane.permits = some free ∧ free + s.lane.running = n
  asleep : ∀ x ∈ s.asleep, ∃ i crashes, x.2 = .job 0 (.ending i crashes)

theorem countP_isJob {tokens : List (Token TrialJob)} (h : ∀ token ∈ tokens, token.lane = 0)
    (time : Millis) :
    tokens.countP (Token.isJob 0) = (tokens.filterMap (Token.end? time)).length +
      (tokens.filterMap Token.starting?).length := by
  induction tokens with
  | nil => rfl
  | cons token rest ih =>
    have ih := ih fun other hmem => h other (List.mem_cons_of_mem _ hmem)
    have hlane := h token List.mem_cons_self
    cases token with
    | starter i waiting => simpa [Token.isJob] using ih
    | job i job =>
      obtain rfl : i = 0 := hlane
      cases job with
      | starting index hold crashes => simp [Token.isJob, ih]; omega
      | ending index crashes => simp [Token.isJob, ih]; omega

/-- The actions that hold a permit have still to start or to end. -/
theorem Limited.running_eq (ho : s.timeline.Orderly) (h : s.Limited n) :
    s.lane.running = s.due.length + (s.ready.filterMap Token.starting?).length := by
  have hready : ∀ token ∈ s.ready, token.lane = 0 := fun token hmem =>
    lane_of_mem ho (by simp [tokens_timeline, hmem])
  have hasleep : (s.asleep.map (·.2)).countP (Token.isJob 0) = s.asleep.length := by
    rw [← List.length_map (·.2), List.countP_eq_length]
    intro token hmem
    obtain ⟨x, hx, rfl⟩ := List.mem_map.mp hmem
    obtain ⟨i, crashes, hjob⟩ := h.asleep x hx
    simp [hjob, Token.isJob]
  have hends : (s.asleep.filterMap fun x => x.2.end? x.1).length = s.asleep.length := by
    refine List.filterMap_length_eq_length.mpr fun x hx => ?_
    obtain ⟨i, crashes, hjob⟩ := h.asleep x hx
    simp [hjob, Token.end?]
  have hparked : (s.lane.parkedToken 0).countP (Token.isJob 0) = 0 := by
    refine List.countP_eq_zero.mpr fun token hmem => ?_
    obtain ⟨waiting, -, rfl⟩ := Lane.mem_parkedToken.mp hmem
    simp [Token.isJob]
  rw [← (tallied ho).running, tokens_timeline, List.countP_append, List.countP_append, hasleep,
    hparked, countP_isJob hready s.now, due, List.length_append, hends]
  omega

/-- Permits are given back. -/
theorem Limited.step (hp : p.Limits n) (ho : s.timeline.Orderly) (hl : s.Lined w p)
    (h : s.Limited n) (hs : TrialStep s s') : s'.Limited n := by
  obtain ⟨free, hfree, hheld⟩ := h.permits
  have hrunning {job : TrialJob} {rest : List (Token TrialJob)}
      (hr : s.ready = .job 0 job :: rest) : 0 < s.lane.running := by
    rw [← (tallied ho).running, tokens_timeline, hr, List.cons_append,
      List.countP_cons_of_pos (by simp [Token.isJob])]
    exact Nat.succ_pos _
  cases hs with
  | leave ready idle => exact ⟨h.permits, h.asleep⟩
  | park ready busy prompt => exact ⟨h.permits, h.asleep⟩
  | @pause q more rest ready pause =>
    obtain ⟨-, -, -, hpause | hzero⟩ := (hl.ready (q :: more) (by simp [ready])).head
    · exact (pause (hpause.trans (hp.pause _))).elim
    · exact (pause hzero).elim
  | @launch q more rest ready pause permits =>
    have hpos : free ≠ 0 := fun hzero => permits (hzero ▸ hfree)
    refine ⟨⟨free - 1, by simp [Lane.start, hfree], ?_⟩, h.asleep⟩
    change free - 1 + (s.lane.running + 1) = n
    omega
  | @begin i hold crashes rest ready lasts =>
    refine ⟨h.permits, fun x hx => ?_⟩
    rcases List.mem_append.mp hx with hx | hx
    · exact h.asleep x hx
    · rw [List.mem_singleton.mp hx]
      exact ⟨i, crashes, rfl⟩
  | brief ready =>
    have := hrunning ready
    refine ⟨⟨free + 1, by simp [Lane.finish, hfree], ?_⟩, h.asleep⟩
    change free + 1 + (s.lane.running - 1) = n
    omega
  | finish ready =>
    have := hrunning ready
    refine ⟨⟨free + 1, by simp [Lane.finish, hfree], ?_⟩, h.asleep⟩
    change free + 1 + (s.lane.running - 1) = n
    omega
  | wake ready least => exact ⟨h.permits, fun x hx => h.asleep x (List.mem_of_mem_filter hx)⟩

theorem Limited.running_le (h : s.Limited n) : s.lane.running ≤ n := by
  obtain ⟨free, -, hheld⟩ := h.permits
  omega

theorem Limited.inFlight_le (ho : s.timeline.Orderly) (hb : s.Balanced w) (h : s.Limited n) :
    s.world.inFlight ≤ n := by
  have hrunning := h.running_eq ho
  have hle := h.running_le
  rw [hb.inFlight_eq]
  omega

theorem maxInFlight_le_step (ho : s.timeline.Orderly) (hb : s.Balanced w) (h : s.Limited n)
    (ho' : s'.timeline.Orderly) (hb' : s'.Balanced w) (h' : s'.Limited n)
    (hmax : s.world.maxInFlight ≤ n) (hs : TrialStep s s') : s'.world.maxInFlight ≤ n := by
  have hnow : s'.world.inFlight ≤ n := h'.inFlight_le ho' hb'
  cases hs with
  | leave => exact (TrialLog.maxInFlight_push _ _).trans_le (max_le hmax hnow)
  | park => exact hmax
  | pause => exact hmax
  | launch => exact hmax
  | begin => exact (TrialLog.maxInFlight_push _ _).trans_le (max_le hmax hnow)
  | @brief i crashes rest ready =>
    have hstarted : (s.world.push (.start i s.now)).inFlight ≤ n := by
      -- the action held a permit before its start
      have hrunning := h.running_eq ho
      have hle := h.running_le
      have hflight := hb.inFlight_eq
      rw [ready, filterMap_starting_starting, List.length_cons] at hrunning
      unfold TrialLog.inFlight at hflight ⊢
      rw [TrialLog.starts_start, TrialLog.ends_start, List.length_append, List.length_singleton]
      omega
    rw [TrialLog.maxInFlight_push, TrialLog.maxInFlight_push]
    exact max_le (max_le hmax hstarted) hnow
  | finish => exact (TrialLog.maxInFlight_push _ _).trans_le (max_le hmax hnow)
  | wake => exact hmax

end Solo

/-! ## No permit is free while an action waits -/

/-- The number of actions that have started by a time and have not ended by then. -/
def Workload.busy (w : Workload) (starts : List (Nat × Millis)) (time : Millis) : Nat :=
  starts.countP fun x => x.2 ≤ time ∧ time < (w.endOf x).time

/-- A start does not change the past. -/
theorem Workload.busy_append_start (w : Workload) (starts : List (Nat × Millis)) (i : Nat)
    {now time : Millis} (h : time < now) :
    w.busy (starts ++ [(i, now)]) time = w.busy starts time := by
  unfold busy
  rw [List.countP_append, List.countP_singleton, if_neg (by simp [h.not_ge]), Nat.add_zero]

namespace Solo

variable {w : Workload} {p : Pacing} {n : Nat} {s s' : TrialState}

theorem Lined.launched_le (ho : s.timeline.Orderly) (h : s.Lined w p) : s.launched ≤ w.count := by
  have hremains {k : Nat} {waiting : List (Pending TrialJob)} (hr : w.Remains p k waiting) :
      k ≤ w.count := by
    cases hr with
    | nothing all => exact all.le
    | next below pauses => exact below.le
  cases hc : s.lane.closed with
  | true => exact (h.closed hc).le
  | false =>
    obtain ⟨waiting, hmem⟩ := exists_starter ho hc
    rw [tokens_timeline, List.mem_append, List.mem_append] at hmem
    rcases hmem with hready | hasleep | hparked
    · exact hremains (h.ready waiting hready)
    · obtain ⟨x, hx, heq⟩ := List.mem_map.mp hasleep
      rcases h.asleep x hx with ⟨i, crashes, hjob⟩ | ⟨q, more, -, -, hr⟩
      · cases hjob.symm.trans heq
      · exact hremains hr
    · obtain ⟨other, hparked, -⟩ := Lane.mem_parkedToken.mp hparked
      exact hremains (h.parked other hparked).1

/-- When nobody is ready and not all actions have started the starter waits for a permit. -/
theorem Limited.running_eq_limit (ho : s.timeline.Orderly) (hl : s.Lined w p) (h : s.Limited n)
    (hready : s.ready = []) (hleft : s.world.starts.length < w.count) : s.lane.running = n := by
  have hlaunched : s.launched = s.world.starts.length := by simp [launched, hready]
  have hopen : s.lane.closed = false := by
    cases hc : s.lane.closed with
    | false => rfl
    | true =>
      have := hl.closed hc
      omega
  obtain ⟨waiting, hmem⟩ := exists_starter ho hopen
  rw [tokens_timeline, hready, List.nil_append, List.mem_append] at hmem
  rcases hmem with hasleep | hparked
  · obtain ⟨x, hx, heq⟩ := List.mem_map.mp hasleep
    obtain ⟨i, crashes, hjob⟩ := h.asleep x hx
    cases hjob.symm.trans heq
  · obtain ⟨other, hparked, heq⟩ := Lane.mem_parkedToken.mp hparked
    cases heq
    obtain ⟨hremains, hnil | hzero⟩ := hl.parked _ hparked
    · subst hnil
      cases hremains with
      | nothing all => omega
    · obtain ⟨free, hfree, hheld⟩ := h.permits
      obtain rfl : free = 0 := Option.some.inj (hfree.symm.trans hzero)
      rwa [Nat.zero_add] at hheld

/-- From now on until the next end the actions that have still to end run. -/
theorem busy_eq_due (ht : s.Timed) (hb : s.Balanced w) {time : Millis} (hnow : s.now ≤ time)
    (hlater : ∀ e ∈ s.due, time < e.time) : w.busy s.world.starts time = s.due.length := by
  have hstarted : ∀ x ∈ s.world.starts, x.2 ≤ time := fun x hx => (ht.starts_le x hx).trans hnow
  have hended : ∀ e ∈ s.world.ends, ¬ time < e.time := fun e he =>
    not_lt.mpr ((ht.ends_le e he).trans hnow)
  calc w.busy s.world.starts time
      = s.world.starts.countP ((fun e => decide (time < e.time)) ∘ w.endOf) :=
        List.countP_congr fun x hx => by simp [hstarted x hx]
    _ = (s.world.starts.map w.endOf).countP fun e => time < e.time := List.countP_map.symm
    _ = (s.world.ends ++ s.due).countP fun e => time < e.time := (hb.countP_eq _).symm
    _ = s.due.length := by
      rw [List.countP_append, List.countP_eq_zero.mpr (by simpa using hended), Nat.zero_add,
        List.countP_eq_length.mpr (by simpa using hlater)]

/-- As long as an action had not started all permits were held by actions that ran. -/
structure Greedy (w : Workload) (n : Nat) (s : TrialState) : Prop where
  started : ∀ x ∈ s.world.starts, ∀ time < x.2, w.busy s.world.starts time = n
  waiting : s.world.starts.length < w.count → ∀ time < s.now, w.busy s.world.starts time = n

theorem Greedy.of_starts_eq (h : s.Greedy w n) (hstarts : s'.world.starts = s.world.starts)
    (hnow : s'.now = s.now) : s'.Greedy w n where
  started := hstarts ▸ h.started
  waiting := hstarts ▸ hnow ▸ h.waiting

theorem Greedy.start (h : s.Greedy w n) (ht : s.Timed) (hleft : s.world.starts.length < w.count)
    {i : Nat} (hstarts : s'.world.starts = s.world.starts ++ [(i, s.now)]) (hnow : s'.now = s.now) :
    s'.Greedy w n := by
  have hpast : ∀ time < s.now, w.busy s'.world.starts time = n := by
    intro time htime
    rw [hstarts, w.busy_append_start _ _ htime]
    exact h.waiting hleft time htime
  refine ⟨fun x hx time htime => ?_, fun _ time htime => hpast time (hnow ▸ htime)⟩
  rw [hstarts] at hx
  rcases List.mem_append.mp hx with hx | hx
  · exact hpast time (htime.trans_le (ht.starts_le x hx))
  · rw [List.mem_singleton.mp hx] at htime
    exact hpast time htime

theorem Greedy.step (ho : s.timeline.Orderly) (hl : s.Lined w p) (hb : s.Balanced w) (ht : s.Timed)
    (hlimited : s.Limited n) (h : s.Greedy w n) (hs : TrialStep s s') : s'.Greedy w n := by
  have hleft {i : Nat} {hold : Millis} {crashes : Bool} {rest : List (Token TrialJob)}
      (hr : s.ready = .job 0 (.starting i hold crashes) :: rest) :
      s.world.starts.length < w.count := by
    refine Nat.lt_of_lt_of_le ?_ (hl.launched_le ho)
    simp [launched, hr]
  cases hs with
  | leave => exact h.of_starts_eq (TrialLog.starts_leave _ _) rfl
  | park => exact h.of_starts_eq rfl rfl
  | pause => exact h.of_starts_eq rfl rfl
  | launch => exact h.of_starts_eq rfl rfl
  | begin ready => exact h.start ht (hleft ready) (TrialLog.starts_start _ _ _) rfl
  | @brief i crashes rest ready =>
    have hstarts : ((s.world.push (.start i s.now)).push (.finish ⟨i, s.now, crashes⟩)).starts =
        s.world.starts ++ [(i, s.now)] := by
      rw [TrialLog.starts_finish, TrialLog.starts_start]
    exact h.start ht (hleft ready) hstarts rfl
  | finish => exact h.of_starts_eq (TrialLog.starts_finish _ _) rfl
  | @wake time' ready least =>
    refine ⟨h.started, fun hleft time htime => ?_⟩
    rcases Nat.lt_or_ge time s.now with hpast | hnow
    · exact h.waiting hleft time hpast
    · -- until the next wake-up all permits are held
      have hheld : s.due.length = n := by
        have hrunning := hlimited.running_eq ho
        rw [hlimited.running_eq_limit ho hl ready hleft, ready] at hrunning
        exact hrunning.symm
      rw [← hheld]
      refine busy_eq_due ht hb hnow fun e he => Nat.lt_of_lt_of_le htime ?_
      rw [due, ready, List.filterMap_nil, List.nil_append] at he
      obtain ⟨x, hx, hend⟩ := List.mem_filterMap.mp he
      obtain ⟨i, crashes, hjob⟩ := hlimited.asleep x hx
      rw [hjob] at hend
      cases hend
      exact (List.min?_eq_some_iff.mp least).2 x.1 (List.mem_map_of_mem hx)

end Solo

/-! ## One after another -/

namespace Workload

/-- How long a number of actions take one after another. -/
def elapsed (w : Workload) (k : Nat) : Millis := ((List.range k).map w.hold).sum

/-- What happens to an action that starts when those before it have ended. -/
def turn (w : Workload) (i : Nat) : List TrialEvent :=
  [.start i (w.elapsed i), .finish ⟨i, w.elapsed (i + 1), w.crashes i⟩]

/-- The first actions one after another. -/
def turns (w : Workload) (k : Nat) : List TrialEvent := (List.range k).flatMap w.turn

theorem elapsed_succ (w : Workload) (k : Nat) : w.elapsed (k + 1) = w.elapsed k + w.hold k := by
  unfold elapsed
  rw [List.range_succ, List.map_append, List.sum_append, List.map_singleton, List.sum_singleton]

theorem turns_succ (w : Workload) (k : Nat) : w.turns (k + 1) = w.turns k ++ w.turn k := by
  unfold turns
  rw [List.range_succ, List.flatMap_append, List.flatMap_singleton]

/-- The last of the first actions ends when they have taken their time. -/
theorem time_of_turns (w : Workload) {k : Nat} {events : List TrialEvent} {e : TrialEnd}
    (h : events ++ [.finish e] = w.turns k) : e.time = w.elapsed k := by
  cases k with
  | zero =>
    have hnil : w.turns 0 = [] := rfl
    simp [hnil] at h
  | succ k =>
    have hlast := congrArg List.getLast? h
    rw [turns_succ, turn, List.getLast?_concat, List.getLast?_append_cons,
      List.getLast?_cons_cons] at hlast
    rw [TrialEvent.finish.inj (Option.some.inj hlast)]

end Workload

namespace Solo

variable {w : Workload} {p : Pacing} {s s' : TrialState}

/-- With what has still to end the actions run one after another. -/
structure InTurn (w : Workload) (s : TrialState) : Prop where
  events : s.lane.closed = false →
    s.world.events ++ s.due.map .finish = w.turns s.world.starts.length
  idle : s.lane.closed = false → s.due = [] → s.now = w.elapsed s.world.starts.length
  closed : s.lane.closed = true → s.world.events = w.turns w.count ++ [.leave (w.elapsed w.count)]

theorem eq_of_perm_of_length_le_one {α : Type} {l l' : List α} (h : l.Perm l')
    (hone : l'.length ≤ 1) : l = l' := by
  match l' with
  | [] => exact h.eq_nil
  | [a] => exact List.perm_singleton.mp h

theorem InTurn.of_open (hopen : s.lane.closed = false)
    (events : s.world.events ++ s.due.map .finish = w.turns s.world.starts.length)
    (idle : s.due = [] → s.now = w.elapsed s.world.starts.length) : s.InTurn w where
  events _ := events
  idle _ := idle
  closed hc := by simp [hopen] at hc

theorem InTurn.step (ho : s.timeline.Orderly) (hl : s.Lined w p) (hlimited : s.Limited 1)
    (h : s.InTurn w) (hs : TrialStep s s') : s'.InTurn w := by
  have hopen := hs.open ho
  have hrunning := hlimited.running_eq ho
  have hone := hlimited.running_le
  have hevents := h.events hopen
  have hidle := h.idle hopen
  have hdueone : s.due.length ≤ 1 := by omega
  -- an action that is ready to start holds the permit
  have hfree {i : Nat} {hold : Millis} {crashes : Bool} {rest : List (Token TrialJob)}
      (hr : s.ready = .job 0 (.starting i hold crashes) :: rest) : s.due = [] := by
    rw [hr, filterMap_starting_starting, List.length_cons] at hrunning
    exact List.length_eq_zero_iff.mp (by omega)
  cases hs with
  | @leave rest ready idle =>
    have hdue : s.due = [] := List.length_eq_zero_iff.mp (by omega)
    have hall : s.world.starts.length = w.count := by
      cases hl.ready [] (by simp [ready]) with
      | nothing all =>
        unfold launched at all
        omega
    rw [hdue, List.map_nil, List.append_nil, hall] at hevents
    refine ⟨nofun, nofun, fun _ => ?_⟩
    rw [TrialLog.events_push, hevents, hidle hdue, hall]
  | park ready busy prompt =>
    exact .of_open hopen (by simpa [due, ready] using hevents) (by simpa [due, ready] using hidle)
  | pause ready pause =>
    exact .of_open hopen (by simpa [due, ready, Token.end?] using hevents)
      (by simpa [due, ready, Token.end?] using hidle)
  | launch ready pause permits =>
    refine .of_open hopen ?_ ?_
    · rw [due_launch hl ready]
      exact hevents
    · rw [due_launch hl ready]
      exact hidle
  | @begin i hold crashes rest ready lasts =>
    obtain ⟨rfl, rfl, rfl⟩ := hl.eq_job ready
    have hdue := hfree ready
    have hnow := hidle hdue
    rw [hdue, List.map_nil, List.append_nil] at hevents
    refine .of_open hopen ?_ ?_
    · rw [due_begin _ _ ready, hdue, TrialLog.events_push, hevents, TrialLog.starts_start,
        List.length_append, List.length_singleton, w.turns_succ, hnow, Workload.turn,
        w.elapsed_succ]
      exact List.append_assoc _ _ _
    · simp [due_begin _ _ ready]
  | @brief i crashes rest ready =>
    obtain ⟨rfl, hhold, rfl⟩ := hl.eq_job ready
    have hdue := hfree ready
    have hnow := hidle hdue
    rw [hdue, List.map_nil, List.append_nil] at hevents
    have helapsed : w.elapsed (s.world.starts.length + 1) = w.elapsed s.world.starts.length := by
      rw [w.elapsed_succ, ← hhold, Nat.add_zero]
    refine .of_open hopen ?_ ?_
    · rw [due_brief _ _ ready, hdue, TrialLog.events_push, TrialLog.events_push, hevents,
        TrialLog.starts_finish, TrialLog.starts_start, List.length_append, List.length_singleton,
        w.turns_succ, hnow, Workload.turn, helapsed]
      simp
    · intro _
      rw [TrialLog.starts_finish, TrialLog.starts_start, List.length_append, List.length_singleton,
        helapsed]
      exact hnow
  | @finish i crashes rest ready =>
    have hdue := due_finish s.lane.finish (s.world.push (.finish ⟨i, s.now, crashes⟩)) ready
    rw [hdue, List.length_cons] at hdueone
    -- nothing else runs
    have hlater := List.length_eq_zero_iff.mp (Nat.le_zero.mp (Nat.le_of_succ_le_succ hdueone))
    rw [hdue, hlater, List.map_singleton] at hevents
    refine .of_open hopen ?_ fun _ => ?_
    · rw [hlater, List.map_nil, List.append_nil, TrialLog.starts_finish]
      exact hevents
    · rw [TrialLog.starts_finish]
      exact w.time_of_turns hevents
  | @wake time ready least =>
    have hdue := eq_of_perm_of_length_le_one (due_wake ready s.lane s.world time) hdueone
    refine .of_open hopen (by rw [hdue]; exact hevents) fun hnone => ?_
    -- who sleeps has still to end
    obtain ⟨x, hx, -⟩ := List.mem_map.mp (List.min?_mem least)
    obtain ⟨i, crashes, hjob⟩ := hlimited.asleep x hx
    rw [hdue, due, List.append_eq_nil_iff] at hnone
    have hend := List.filterMap_eq_nil_iff.mp hnone.2 x hx
    rw [hjob] at hend
    cases hend

end Solo

/-! ## Trials -/

namespace Workload.Reached

variable {w : Workload} {p : Pacing} {n : Nat} {s : TrialState} (hp : p.Limits n)

include hp

theorem limited (h : w.Reached p s) : s.Limited n := by
  induction h with
  | begin => exact ⟨⟨n, hp.permits, rfl⟩, nofun⟩
  | step before next step ih =>
    exact ih.step hp (before.orderly hp.permits_ne_zero) (before.lined hp.permits_ne_zero) step

theorem maxInFlight_le (h : w.Reached p s) : s.world.maxInFlight ≤ n := by
  have hsome := hp.permits_ne_zero
  induction h with
  | begin => exact Nat.zero_le n
  | step before next step ih =>
    have after := before.step next step
    exact Solo.maxInFlight_le_step (before.orderly hsome) (before.balanced hsome)
      (before.limited hp) (after.orderly hsome) (after.balanced hsome) (after.limited hp) ih step

theorem greedy (h : w.Reached p s) : s.Greedy w n := by
  have hsome := hp.permits_ne_zero
  induction h with
  | begin => exact ⟨nofun, fun _ time htime => absurd htime (Nat.not_lt_zero time)⟩
  | step before next step ih =>
    exact ih.step (before.orderly hsome) (before.lined hsome) (before.balanced hsome) before.timed
      (before.limited hp) step

theorem inTurn (hone : n = 1) (h : w.Reached p s) : s.InTurn w := by
  subst hone
  have hsome := hp.permits_ne_zero
  induction h with
  | begin => exact .of_open rfl rfl fun _ => rfl
  | step before next step ih =>
    exact ih.step (before.orderly hsome) (before.lined hsome) (before.limited hp) step

end Workload.Reached

/-- A limit of the parallelism takes every trial to its end, with never more actions in flight than
it allows. An action waits only while no permit is free: at every time before its start as many
actions run as there are permits, whether others have crashed by then or not. With one permit the
actions run one after another. -/
theorem started_within_limit (w : Workload) (limit : UInt32) (draws : Draws) :
    ∃ trial, (Load.parallelismLimited limit).trial draws w.holds w.crashes = some trial ∧
      trial.Complete w ∧ trial.log.maxInFlight ≤ max limit.toNat 1 ∧
      (∀ x ∈ trial.log.starts, ∀ time < x.2, w.busy trial.log.starts time = max limit.toNat 1) ∧
      (limit.toNat ≤ 1 →
        trial.log.events = w.turns w.count ++ [.leave (w.elapsed w.count)]) := by
  have hp : ({ Pacing.immediate with permits := some (max limit.toNat 1) } : Pacing).Limits
      (max limit.toNat 1) := ⟨fun _ => rfl, rfl, Nat.one_pos.trans_le (le_max_right _ _)⟩
  obtain ⟨s, hs, hc, htrial⟩ := Load.exists_trial w
    (show (Load.parallelismLimited limit).pacing draws w.count = some _ from rfl) (fun _ => rfl)
    hp.permits_ne_zero
  refine ⟨_, htrial, hs.complete hp.permits_ne_zero hc, hs.maxInFlight_le hp,
    (hs.greedy hp).started, fun hone => ?_⟩
  exact (hs.inTurn hp (max_eq_right hone)).closed hc

/-- Two permits: the second action gives its permit back when it crashes. -/
example : ((Load.parallelismLimited 2).trial (fun _ => 0) [5, 3, 1] (fun i => i = 1)).map
    (fun trial => (trial.log.starts, trial.finished)) = some ([(0, 0), (1, 0), (2, 3)], 5) := by
  decide

end ReplicaLoad

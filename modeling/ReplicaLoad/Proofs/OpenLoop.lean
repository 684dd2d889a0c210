-- Starts without feedback. Under a load that limits no permits the starter
-- never waits for an action to end. So the actions start at times that the
-- pauses alone decide, however long they take and whether they crash. These
-- times have closed forms for a fixed rate, for bursts and for a time limit. A
-- pause ends at a whole millisecond, so the pauses that spread actions over a
-- time limit may add up to more than the limit.
import Mathlib.Data.Nat.Basic
import ReplicaLoad.Proofs.TrialCourse

namespace ReplicaLoad

/-- Start times that follow the pauses of a pacing. -/
structure Pacing.Starts (p : Pacing) (start : Nat → Millis) : Prop where
  first : start 0 = Millis.after 0 (p.pause 0)
  next : ∀ k, start (k + 1) = (start k).after (p.pause (k + 1))

theorem Millis.after_zero (time : Millis) : time.after 0 = time := rfl

namespace Solo

/-- No action has started, or will start, at another time than its own. -/
structure OnTime (start : Nat → Millis) (s : TrialState) : Prop where
  starts : ∀ x ∈ s.world.starts, x.2 = start x.1
  starting : ∀ lane i hold crashes, .job lane (.starting i hold crashes) ∈ s.ready → s.now = start i
  ready : ∀ q more, .starter 0 (q :: more) ∈ s.ready → s.now.after q.pause = start q.job.index
  asleep : ∀ x ∈ s.asleep, ∀ q more, x.2 = .starter 0 (q :: more) → x.1 = start q.job.index
  permits : s.lane.permits = none

namespace OnTime

variable {w : Workload} {p : Pacing} {start : Nat → Millis} {s s' : TrialState}

theorem begin (hp : p.Starts start) (hpermits : p.permits = none) : (w.begin p).OnTime start where
  starts := nofun
  starting := by
    intro lane i hold crashes hmem
    cases List.mem_singleton.mp hmem
  ready := by
    intro q more hmem
    have hrest : w.rest p 0 = q :: more :=
      ((Token.starter.injEq ..).mp (List.mem_singleton.mp hmem)).2.symm
    rcases Nat.lt_or_ge 0 w.count with hlt | hle
    · rw [w.rest_of_lt p hlt] at hrest
      cases hrest
      exact hp.first.symm
    · rw [w.rest_of_le p hle] at hrest
      cases hrest
  asleep := nofun
  permits := hpermits

/-- A starter that has waited for an action to end has no action left to start. -/
theorem ready_finish (hl : s.Lined w p) (h : s.OnTime start) {token : Token TrialJob}
    {rest : List (Token TrialJob)} (hr : s.ready = token :: rest) (q : Pending TrialJob)
    (more : List (Pending TrialJob))
    (hmem : .starter 0 (q :: more) ∈ rest ++ s.lane.parkedToken 0) :
    s.now.after q.pause = start q.job.index := by
  rcases List.mem_append.mp hmem with hmem | hmem
  · exact h.ready q more (by simp [hr, hmem])
  · obtain ⟨other, hparked, heq⟩ := Lane.mem_parkedToken.mp hmem
    cases heq
    rcases (hl.parked _ hparked).2 with hnil | hzero
    · cases hnil
    · cases h.permits.symm.trans hzero

theorem starting_finish (h : s.OnTime start) {token : Token TrialJob}
    {rest : List (Token TrialJob)} (hr : s.ready = token :: rest) (lane i : Nat) (hold : Millis)
    (crashes : Bool) (hmem : .job lane (.starting i hold crashes) ∈ rest ++ s.lane.parkedToken 0) :
    s.now = start i := by
  rcases List.mem_append.mp hmem with hmem | hmem
  · exact h.starting lane i hold crashes (by simp [hr, hmem])
  · obtain ⟨other, -, heq⟩ := Lane.mem_parkedToken.mp hmem
    cases heq

theorem step (hp : p.Starts start) (ho : s.timeline.Orderly) (hl : s.Lined w p)
    (h : s.OnTime start) (hs : TrialStep s s') : s'.OnTime start := by
  cases hs with
  | leave ready idle =>
    refine ⟨by simpa using h.starts, fun lane i hold crashes hmem => ?_, fun q more hmem => ?_,
      h.asleep, h.permits⟩
    · exact h.starting lane i hold crashes (by simp [ready, hmem])
    · exact h.ready q more (by simp [ready, hmem])
  | park ready busy prompt =>
    refine ⟨h.starts, fun lane i hold crashes hmem => ?_, fun q more hmem => ?_, h.asleep,
      h.permits⟩
    · exact h.starting lane i hold crashes (by simp [ready, hmem])
    · exact h.ready q more (by simp [ready, hmem])
  | @pause q more rest ready pause =>
    refine ⟨h.starts, fun lane i hold crashes hmem => ?_, fun q' more' hmem => ?_, ?_, h.permits⟩
    · exact h.starting lane i hold crashes (by simp [ready, hmem])
    · exact h.ready q' more' (by simp [ready, hmem])
    · intro x hx q' more' heq
      rcases List.mem_append.mp hx with hx | hx
      · exact h.asleep x hx q' more' heq
      · rw [List.mem_singleton.mp hx] at heq ⊢
        cases heq
        exact h.ready q more (by simp [ready])
  | @launch q more rest ready pause permits =>
    obtain ⟨hrest, hasleep, -⟩ := alone ho ready
    have hnow : s.now = start q.job.index := by
      have hready := h.ready q more (by simp [ready])
      rwa [pause, Millis.after_zero] at hready
    obtain ⟨-, hjob, rfl, -⟩ := (hl.ready (q :: more) (by simp [ready])).head
    have hindex : q.job.index = s.launched := by rw [hjob]; rfl
    refine ⟨h.starts, fun lane i hold crashes hmem => ?_, fun q' more' hmem => ?_, ?_, ?_⟩
    · rcases List.mem_cons.mp hmem with heq | hmem
      · cases heq
      · rcases List.mem_append.mp hmem with hmem | hmem
        · exact h.starting lane i hold crashes (by simp [ready, hmem])
        · have heq : q.job = .starting i hold crashes :=
            ((Token.job.injEq ..).mp (List.mem_singleton.mp hmem)).2.symm
          rw [hnow, heq]
          rfl
    · rcases List.mem_cons.mp hmem with heq | hmem
      · -- the next action follows after its pause
        have hnext : w.rest p (s.launched + 1) = q' :: more' :=
          ((Token.starter.injEq ..).mp heq).2.symm
        rcases Nat.lt_or_ge (s.launched + 1) w.count with hlt | hle
        · rw [w.rest_of_lt p hlt] at hnext
          cases hnext
          change s.now.after (p.pause (s.launched + 1)) = start (s.launched + 1)
          rw [hp.next, hnow, hindex]
        · rw [w.rest_of_le p hle] at hnext
          cases hnext
      · rcases List.mem_append.mp hmem with hmem | hmem
        · exact absurd hmem (hrest _)
        · cases List.mem_singleton.mp hmem
    · intro x hx q' more' heq
      exact absurd heq (hasleep x hx _)
    · simp [Lane.start, h.permits]
  | @begin i hold crashes rest ready lasts =>
    refine ⟨fun x hx => ?_, fun lane i' hold' crashes' hmem => ?_, fun q more hmem => ?_, ?_,
      h.permits⟩
    · rw [TrialLog.starts_start] at hx
      rcases List.mem_append.mp hx with hx | hx
      · exact h.starts x hx
      · rw [List.mem_singleton.mp hx]
        exact h.starting 0 i hold crashes (by simp [ready])
    · exact h.starting lane i' hold' crashes' (by simp [ready, hmem])
    · exact h.ready q more (by simp [ready, hmem])
    · intro x hx q more heq
      rcases List.mem_append.mp hx with hx | hx
      · exact h.asleep x hx q more heq
      · rw [List.mem_singleton.mp hx] at heq
        cases heq
  | @brief i crashes rest ready =>
    refine ⟨fun x hx => ?_, h.starting_finish ready, h.ready_finish hl ready, h.asleep,
      by simp [Lane.finish, h.permits]⟩
    rw [TrialLog.starts_finish, TrialLog.starts_start] at hx
    rcases List.mem_append.mp hx with hx | hx
    · exact h.starts x hx
    · rw [List.mem_singleton.mp hx]
      exact h.starting 0 i 0 crashes (by simp [ready])
  | @finish i crashes rest ready =>
    exact ⟨by simpa using h.starts, h.starting_finish ready, h.ready_finish hl ready, h.asleep,
      by simp [Lane.finish, h.permits]⟩
  | @wake time ready least =>
    refine ⟨h.starts, fun lane i hold crashes hmem => ?_, fun q more hmem => ?_, ?_, h.permits⟩
    · obtain ⟨x, hx, heq⟩ := List.mem_map.mp hmem
      rcases hl.asleep x (List.mem_of_mem_filter hx) with ⟨i', c, hjob⟩ | ⟨q, more, hstarter, -⟩
      · cases hjob.symm.trans heq
      · cases hstarter.symm.trans heq
    · obtain ⟨x, hx, heq⟩ := List.mem_map.mp hmem
      obtain ⟨hmem, htime⟩ := List.mem_filter.mp hx
      have htime : x.1 = time := by simpa using htime
      -- the pause is over
      have hpause : q.pause = 0 := by
        rcases hl.asleep x hmem with ⟨i, c, hjob⟩ | ⟨q', more', hstarter, hzero, -⟩
        · cases hjob.symm.trans heq
        · cases hstarter.symm.trans heq
          exact hzero
      rw [hpause, Millis.after_zero, ← htime]
      exact h.asleep x hmem q more heq
    · exact fun x hx => h.asleep x (List.mem_of_mem_filter hx)

end OnTime

end Solo

theorem Workload.Reached.onTime {w : Workload} {p : Pacing} {start : Nat → Millis} {s : TrialState}
    (hp : p.Starts start) (hpermits : p.permits = none) (h : w.Reached p s) : s.OnTime start := by
  have hsome : p.permits ≠ some 0 := by simp [hpermits]
  induction h with
  | begin => exact .begin hp hpermits
  | step before next step ih =>
    exact ih.step hp (before.orderly hsome) (before.lined hsome) step

/-! ## Start times -/

namespace Pacing

theorem starts_immediate : immediate.Starts fun _ => 0 where
  first := (Millis.after_zero 0).symm
  next _ := (Millis.after_zero 0).symm

theorem starts_every (gap : Nanos) : (every gap).Starts fun i => i * gap.ceilMillis where
  first := (Nat.zero_mul _).trans (Millis.after_zero 0).symm
  next k := Nat.succ_mul k _

theorem starts_bursts (size ms : Nat) :
    (bursts size (Nanos.ofMillis ms)).Starts fun i => i / size * ms where
  first := by
    rw [Nat.zero_div, Nat.zero_mul]
    exact (Millis.after_zero 0).symm
  next k := by
    by_cases h : (k + 1) % size = 0
    · have hpause : (bursts size (Nanos.ofMillis ms)).pause (k + 1) = Nanos.ofMillis ms :=
        if_pos ⟨Nat.succ_ne_zero k, h⟩
      rw [hpause, after_ofMillis, Nat.succ_div_of_mod_eq_zero h, Nat.succ_mul]
    · have hpause : (bursts size (Nanos.ofMillis ms)).pause (k + 1) = 0 :=
        if_neg fun hand => h hand.2
      rw [hpause, Millis.after_zero, Nat.succ_div_of_mod_ne_zero h]

end Pacing

/-- The start times of the loads that limit no permits and draw nothing, for a number of actions. -/
def Load.timetable? (count : Nat) : Load → Option (Nat → Millis)
  | .qps rate => some fun i => i * (rateInterval rate).ceilMillis
  | .timeLimited limit =>
    some fun i => i * Nanos.ceilMillis (Nanos.ofMillis limit.toNat / count)
  | .stepped b => some fun i => i / max b.burstSize.toNat 1 * b.stepDelayMs.toNat
  | _ => none

theorem Load.exists_pacing {load : Load} {count : Nat} {start : Nat → Millis} (draws : Draws)
    (hload : load.timetable? count = some start) (hcount : count < twoTo 32) :
    ∃ p : Pacing, load.pacing draws count = some p ∧ p.Starts start ∧
      (∀ i, p.offset i = 0) ∧ p.permits = none := by
  cases load with
  | qps rate =>
    cases hload
    exact ⟨_, rfl, Pacing.starts_every _, fun _ => rfl, rfl⟩
  | stepped b =>
    cases hload
    exact ⟨_, rfl, Pacing.starts_bursts _ _, fun _ => rfl, rfl⟩
  | timeLimited limit =>
    cases hload
    by_cases hzero : count = 0
    · subst hzero
      refine ⟨_, rfl, ?_, fun _ => rfl, rfl⟩
      simpa [Nanos.ceilMillis, Nanos.perMilli] using Pacing.starts_immediate
    · have hmod : count % twoTo 32 = count := Nat.mod_eq_of_lt hcount
      refine ⟨_, ?_, Pacing.starts_every _, fun _ => rfl, rfl⟩
      simp only [Load.pacing, if_neg hzero, spreadInterval?, hmod, Option.map_some]
  | randomized rate => cases hload
  | randomizedTimeLimited limit => cases hload
  | parallelismLimited limit => cases hload

/-! ## Trials -/

/-- Pauses that nothing holds up start the actions at the times that follow from them. -/
theorem Load.exists_trial_onTime {load : Load} {draws : Draws} {p : Pacing} {start : Nat → Millis}
    (w : Workload) (hload : load.pacing draws w.count = some p) (hp : p.Starts start)
    (hoffset : ∀ i, p.offset i = 0) (hpermits : p.permits = none) :
    ∃ trial, load.trial draws w.holds w.crashes = some trial ∧ trial.Complete w ∧
      trial.log.starts = (List.range w.count).map fun i => (i, start i) := by
  have hsome : p.permits ≠ some 0 := by simp [hpermits]
  obtain ⟨s, hs, hc, htrial⟩ := Load.exists_trial w hload hoffset hsome
  have hcomplete := hs.complete hsome hc
  refine ⟨_, htrial, hcomplete, ?_⟩
  have honTime := (hs.onTime hp hpermits).starts
  calc s.world.starts
      = s.world.starts.map id := (List.map_id _).symm
    _ = s.world.starts.map fun x => (x.1, start x.1) :=
      List.map_congr_left fun x hx => Prod.ext rfl (honTime x hx)
    _ = (s.world.starts.map (·.1)).map fun i => (i, start i) := by rw [List.map_map]; rfl
    _ = (List.range w.count).map fun i => (i, start i) := by rw [hcomplete.starts]

/-- Under a fixed rate, in bursts and within a time limit every action starts once, at its own time,
whatever the others do. It ends as it has to, and the tuning set returns at the last of the ends, at
once if there is no action. -/
theorem started_by_timetable (w : Workload) (draws : Draws) {load : Load} {start : Nat → Millis}
    (hload : load.timetable? w.count = some start) (hcount : w.count < twoTo 32) :
    ∃ trial, load.trial draws w.holds w.crashes = some trial ∧
      trial.log.starts = (List.range w.count).map (fun i => (i, start i)) ∧
      trial.log.ends.Perm
        ((List.range w.count).map fun i => ⟨i, start i + w.hold i, w.crashes i⟩) ∧
      trial.log.events.getLast? = some (.leave trial.finished) ∧
      trial.finished = (((List.range w.count).map fun i => start i + w.hold i).max?).getD 0 := by
  obtain ⟨p, hp, hstarts, hoffset, hpermits⟩ := Load.exists_pacing draws hload hcount
  obtain ⟨trial, htrial, hcomplete, htimes⟩ :=
    Load.exists_trial_onTime w hp hstarts hoffset hpermits
  refine ⟨trial, htrial, htimes, ?_, hcomplete.left, ?_⟩
  · simpa [htimes, Workload.endOf, Function.comp_def] using hcomplete.ends
  · simpa [htimes, Workload.endOf, Function.comp_def] using hcomplete.finished

/-- Bursts of two, ten milliseconds apart: the first action outlasts the second burst, and the
second one crashes. -/
theorem started_by_timetable_bursts :
    ∃ trial, (Load.stepped ⟨2, 10⟩).trial (fun _ => 0) [25, 0, 5] (fun i => i = 1) = some trial ∧
      trial.log.starts = [(0, 0), (1, 0), (2, 10)] ∧
      trial.log.ends.Perm [⟨0, 25, false⟩, ⟨1, 0, true⟩, ⟨2, 15, false⟩] ∧
      trial.log.events.getLast? = some (.leave trial.finished) ∧ trial.finished = 25 :=
  @started_by_timetable ⟨[25, 0, 5], fun i => i = 1⟩ (fun _ => 0) (.stepped ⟨2, 10⟩) _ rfl
    (by decide)

/-! ## The window of a time limit -/

theorem ceilMillis_ofMillis_add (ms : Nat) {d : Nat} (hd : d < Nanos.perMilli) :
    Nanos.ceilMillis (Nanos.ofMillis ms + d) = ms + if d = 0 then 0 else 1 := by
  change (ms * 1000000 + d + (1000000 - 1)) / 1000000 = ms + if d = 0 then 0 else 1
  change d < 1000000 at hd
  split <;> omega

/-- An equal share of some milliseconds is rounded up to one more than their quotient, unless what
the quotient leaves is less than a nanosecond for each share. -/
theorem ceilMillis_share (ms : Nat) {n : Nat} (hn : 0 < n) :
    Nanos.ceilMillis (Nanos.ofMillis ms / n) =
      ms / n + if ms % n * Nanos.perMilli < n then 0 else 1 := by
  have hshare : Nanos.ofMillis ms / n = ms / n * Nanos.perMilli + ms % n * Nanos.perMilli / n := by
    calc ms * Nanos.perMilli / n
        = (n * (ms / n) + ms % n) * Nanos.perMilli / n := by rw [Nat.div_add_mod]
      _ = (n * (ms / n * Nanos.perMilli) + ms % n * Nanos.perMilli) / n := by ring_nf
      _ = ms / n * Nanos.perMilli + ms % n * Nanos.perMilli / n := Nat.mul_add_div hn _ _
  have hlt : ms % n * Nanos.perMilli / n < Nanos.perMilli :=
    Nat.div_lt_of_lt_mul (Nat.mul_lt_mul_of_pos_right (Nat.mod_lt _ hn) (by decide))
  rw [hshare]
  exact (ceilMillis_ofMillis_add _ hlt).trans (by simp only [Nat.div_eq_zero_iff_lt hn])

/-- Rounded shares fit in these milliseconds up to the beginning of the last one if the division is
even, or if there are few of them. -/
theorem shares_fit_iff (ms : Nat) {n : Nat} (hn : 0 < n) :
    (n - 1) * Nanos.ceilMillis (Nanos.ofMillis ms / n) ≤ ms ↔
      ms % n * Nanos.perMilli < n ∨ n ≤ ms / n + ms % n + 1 := by
  have hdiv : n * (ms / n) + ms % n = ms := Nat.div_add_mod ms n
  rw [ceilMillis_share ms hn]
  split
  · next h =>
    refine iff_of_true ?_ (Or.inl h)
    calc (n - 1) * (ms / n) ≤ n * (ms / n) := Nat.mul_le_mul_right _ (Nat.sub_le n 1)
      _ ≤ ms := Nat.mul_div_le ms n
  · next h =>
    have hlast : (n - 1) * (ms / n + 1) + (ms / n + 1) = n * (ms / n) + n := by
      rw [← Nat.succ_mul, Nat.succ_eq_add_one, Nat.sub_add_cancel hn, Nat.mul_succ]
    rw [or_iff_right h]
    omega

theorem shares_lt (ms : Nat) {n : Nat} (hn : 0 < n) :
    (n - 1) * Nanos.ceilMillis (Nanos.ofMillis ms / n) < ms + n := by
  have hgap : Nanos.ceilMillis (Nanos.ofMillis ms / n) ≤ ms / n + 1 := by
    rw [ceilMillis_share ms hn]
    exact Nat.add_le_add_left (by split <;> decide) _
  calc (n - 1) * Nanos.ceilMillis (Nanos.ofMillis ms / n)
      ≤ (n - 1) * (ms / n + 1) := Nat.mul_le_mul_left _ hgap
    _ < n * (ms / n + 1) := Nat.mul_lt_mul_of_pos_right (Nat.sub_lt hn Nat.one_pos) (Nat.succ_pos _)
    _ = n * (ms / n) + n := Nat.mul_succ n _
    _ ≤ ms + n := Nat.add_le_add_right (Nat.mul_div_le ms n) n

/-- No action starts after the end of a time limit. -/
def Trial.KeepsWindow (limit : UInt64) (r : Trial) : Prop := ∀ x ∈ r.log.starts, x.2 ≤ limit.toNat

/-- The actions that are spread over a time limit keep it if the rounded gaps do; with fewer than
`2 ^ 32` actions, if the limit can be shared evenly or the actions are few, and in any case the last
one is late by less than a millisecond for each. -/
theorem window_kept_iff (w : Workload) (limit : UInt64) (draws : Draws)
    (hcount : w.count % twoTo 32 ≠ 0) :
    ∃ trial, (Load.timeLimited limit).trial draws w.holds w.crashes = some trial ∧
      (trial.KeepsWindow limit ↔ (w.count - 1) *
        Nanos.ceilMillis (Nanos.ofMillis limit.toNat / (w.count % twoTo 32)) ≤ limit.toNat) ∧
      (w.count < twoTo 32 →
        (trial.KeepsWindow limit ↔ limit.toNat % w.count * Nanos.perMilli < w.count ∨
          w.count ≤ limit.toNat / w.count + limit.toNat % w.count + 1) ∧
        ∀ x ∈ trial.log.starts, x.2 < limit.toNat + w.count) := by
  have hpos : 0 < w.count := by
    rcases Nat.eq_zero_or_pos w.count with hzero | hpos
    · exact absurd (by rw [hzero, Nat.zero_mod]) hcount
    · exact hpos
  have hload : (Load.timeLimited limit).pacing draws w.count =
      some (.every (Nanos.ofMillis limit.toNat / (w.count % twoTo 32))) := by
    simp only [Load.pacing, if_neg hpos.ne', spreadInterval?, if_neg hcount, Option.map_some]
  obtain ⟨trial, htrial, -, htimes⟩ :=
    Load.exists_trial_onTime w hload (Pacing.starts_every _) (fun _ => rfl) rfl
  refine ⟨trial, htrial, ?_⟩
  generalize hgap : Nanos.ceilMillis (Nanos.ofMillis limit.toNat / (w.count % twoTo 32)) = gap at *
  -- the last action is the latest
  have hlatest : ∀ x ∈ trial.log.starts, x.2 ≤ (w.count - 1) * gap := by
    intro x hx
    rw [htimes] at hx
    obtain ⟨i, hi, rfl⟩ := List.mem_map.mp hx
    exact Nat.mul_le_mul_right gap (Nat.le_sub_one_of_lt (List.mem_range.mp hi))
  have hlast : (w.count - 1, (w.count - 1) * gap) ∈ trial.log.starts := by
    rw [htimes]
    exact List.mem_map_of_mem (List.mem_range.mpr (Nat.sub_lt hpos Nat.one_pos))
  have hkept : trial.KeepsWindow limit ↔ (w.count - 1) * gap ≤ limit.toNat :=
    ⟨fun h => h _ hlast, fun h x hx => (hlatest x hx).trans h⟩
  refine ⟨hkept, fun hsmall => ?_⟩
  rw [Nat.mod_eq_of_lt hsmall] at hgap
  constructor
  · rw [hkept, ← hgap]
    exact shares_fit_iff limit.toNat hpos
  · intro x hx
    refine (hlatest x hx).trans_lt ?_
    rw [← hgap]
    exact shares_lt limit.toNat hpos

theorem window_kept_iff_four :
    ∃ trial, (Load.timeLimited 10).trial (fun _ => 0) [0, 0, 0, 0] = some trial ∧
      (trial.KeepsWindow 10 ↔ 3 * 3 ≤ 10) ∧
      (4 < twoTo 32 →
        (trial.KeepsWindow 10 ↔ 2 * 1000000 < 4 ∨ 4 ≤ 2 + 2 + 1) ∧
        ∀ x ∈ trial.log.starts, x.2 < 10 + 4) :=
  window_kept_iff ⟨[0, 0, 0, 0], fun _ => false⟩ 10 (fun _ => 0) (by decide)

/-- Three actions in one millisecond: the gaps are rounded up to a millisecond each. -/
theorem the_window_closes_too_early :
    ∃ trial, (Load.timeLimited 1).trial (fun _ => 0) [0, 0, 0] = some trial ∧
      ¬ trial.KeepsWindow 1 := by
  refine ⟨_, rfl, ?_⟩
  unfold Trial.KeepsWindow
  decide

end ReplicaLoad

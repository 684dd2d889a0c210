-- Runs of calls. Calls of measurements take turns on a timeline. A call that
-- finds its instance taken tries again when it is free, and may then find that
-- another call was faster. It does so at most once for every other call, and so
-- the steps that a run is given are enough for all calls to come to their end.
import Mathlib.Tactic.Ring
import ReplicaLoad.Proofs.TimelineTicks
import ReplicaLoad.Run.Step

namespace ReplicaLoad

variable {τ : Type}

/-! ## Calls -/

/-- A call has a wait before it, and after it has been made there is none but the one that it
takes. -/
def CallJob.size : CallJob → Nat
  | .call _ _ => 1
  | .finish _ _ _ => 0

namespace CallRun

/-- The time until which the instance of a call is taken. -/
def freeAt (s : CallRun) (m : MeasurementCall) : Millis :=
  (s.takenUntil.get? (m.method, m.identifier)).getD 0

/-- Whether a job would find its instance taken at a time. -/
def held (s : CallRun) (time : Millis) : CallJob → Nat
  | .call _ m => if time < s.freeAt m then 1 else 0
  | .finish _ _ _ => 0

theorem wanes_held (s : CallRun) : Wanes s.held := by
  intro job a b hle
  cases job with
  | call index m =>
    simp only [held]
    split
    · next hb => rw [if_pos (Nat.lt_of_le_of_lt hle hb)]
    · exact Nat.zero_le _
  | finish => exact Nat.le_refl _

theorem held_le_size (s : CallRun) (time : Millis) (job : CallJob) : s.held time job ≤ job.size := by
  cases job with
  | call index m =>
    simp only [held, CallJob.size]
    split <;> omega
  | finish => exact Nat.le_refl _

theorem held_congr {s s' : CallRun} (h : s'.takenUntil = s.takenUntil) : s'.held = s.held := by
  funext time job
  cases job with
  | call index m =>
    have hfree : s'.freeAt m = s.freeAt m := by
      unfold freeAt
      rw [h]
    unfold held
    dsimp only
    rw [hfree]
  | finish => rfl

@[simp] theorem takenUntil_finish (step : String) (s : CallRun) (index : Nat) (m : MeasurementCall)
    (outcome : CallOutcome) : (s.finish step index m outcome).takenUntil = s.takenUntil := by
  cases outcome <;> rfl

@[simp] theorem measurements_finish (step : String) (s : CallRun) (index : Nat)
    (m : MeasurementCall) (outcome : CallOutcome) :
    (s.finish step index m outcome).measurements = s.measurements.collect outcome := by
  cases outcome <;> rfl

/-- What an instance answers to a call. -/
def outcome (s : CallRun) (now : Millis) (m : MeasurementCall) : CallOutcome :=
  (s.measurements.call now m.method m.identifier m.params).2.2

def called (s : CallRun) (now : Millis) (m : MeasurementCall) : CallRun :=
  { s with measurements := (s.measurements.call now m.method m.identifier m.params).1 }

/-- What a turn of a job can do. -/
inductive Turned (step : String) (now : Millis) (s : CallRun) :
    CallJob → CallRun × Turn CallJob → Prop
  | finish (index : Nat) (m : MeasurementCall) (outcome : CallOutcome) :
      Turned step now s (.finish index m outcome) (s.finish step index m outcome, .done)
  /-- Another call has the instance. -/
  | retry (index : Nat) (m : MeasurementCall) (taken : now < s.freeAt m) :
      Turned step now s (.call index m)
        (s, .wait (Nanos.ofMillis (s.freeAt m - now)) (.call index m))
  | atOnce (index : Nat) (m : MeasurementCall) :
      Turned step now s (.call index m)
        ((s.called now m).finish step index m (s.outcome now m), .done)
  | take (index : Nat) (m : MeasurementCall) (lasts : Nanos) (takenUntil : Table InstanceKey Millis) :
      Turned step now s (.call index m)
        ({ s.called now m with takenUntil }, .wait lasts (.finish index m (s.outcome now m)))

theorem turned (step : String) (now : Millis) (s : CallRun) (job : CallJob) :
    Turned step now s job (s.turn step now job) := by
  cases job with
  | finish index m outcome => exact .finish index m outcome
  | call index m =>
    by_cases htaken : now < s.freeAt m
    · have hturn : s.turn step now (.call index m) =
          (s, .wait (Nanos.ofMillis (s.freeAt m - now)) (.call index m)) := if_pos htaken
      rw [hturn]
      exact .retry index m htaken
    · unfold turn
      dsimp only
      rw [if_neg (by exact htaken)]
      split
      · exact .atOnce index m
      · exact .take index m _ _

/-- A call that waits for its instance finds it free, unless another call takes it again. -/
theorem le_after_ofMillis (free now : Nat) :
    free ≤ Millis.after now (Nanos.ofMillis (free - now)) := by
  unfold Millis.after Nanos.ceilMillis Nanos.ofMillis Nanos.perMilli
  omega

end CallRun

namespace Timeline

/-- The calls that have still to be made. -/
def unmade (t : Timeline CallRun CallJob) : Nat := t.tally fun _ => CallJob.size

/-- What is left to do of calls: beside the steps of each job, two for every call that would find its
instance taken, and two for every pair of calls that have still to be made, of which the first one
can take the instance from the other. -/
def callRank (t : Timeline CallRun CallJob) : Nat :=
  t.work CallJob.size + 2 * t.tally t.world.held + t.unmade * (t.unmade - 1)

variable {t t' : Timeline CallRun CallJob}

theorem held_le_unmade : t.tally t.world.held ≤ t.unmade :=
  tally_le_tally t.world.held_le_size

theorem pairs_le {m n : Nat} (h : m ≤ n) : m * (m - 1) ≤ n * (n - 1) :=
  Nat.mul_le_mul h (Nat.sub_le_sub_right h 1)

theorem pairs_succ (n : Nat) : (n + 1) * n = n * (n - 1) + 2 * n := by
  cases n with
  | zero => rfl
  | succ n =>
    rw [Nat.add_sub_cancel, Nat.mul_comm (n + 1) n, ← Nat.add_mul]

/-- Every step leaves less to do: one in which a call waits for its instance has made that wait good
before. -/
theorem callRank_lt {step : String} (h : Orderly t) (ha : t.Ahead)
    (hs : t.step (callCrew step) = some t') : t'.callRank < t.callRank := by
  unfold callRank
  cases step_tick h ha hs with
  | pass world tally work =>
    have hworld : t'.world = t.world := by
      rcases world with hworld | ⟨_, hworld⟩
      · exact hworld
      · exact hworld
    have hheld := tally _ t.world.wanes_held
    have hpairs := pairs_le (tally (fun _ => CallJob.size) fun _ _ _ _ => Nat.le_refl _)
    have hwork := work CallJob.size
    rw [hworld]
    unfold unmade
    omega
  | @done i job turn world tally work =>
    have hworld : t'.world = (t.world.turn step t.now job).1 := world
    have hfree : (t.world.turn step t.now job).1.takenUntil = t.world.takenUntil := by
      have hturned := t.world.turned step t.now job
      change (t.world.turn step t.now job).2 = .done at turn
      generalize t.world.turn step t.now job = result at hturned turn
      cases hturned with
      | finish => apply CallRun.takenUntil_finish
      | retry => cases turn
      | atOnce => apply CallRun.takenUntil_finish
      | take => cases turn
    have hheld := tally t.world.held
    have hunmade := tally fun _ => CallJob.size
    have hpairs : t'.unmade * (t'.unmade - 1) ≤ t.unmade * (t.unmade - 1) :=
      pairs_le (Nat.le_of_add_right_le hunmade.le)
    have hwork := work CallJob.size
    rw [hworld, CallRun.held_congr hfree]
    omega
  | @wait i job d next turn world tally work =>
    have hwork := work CallJob.size
    have hunmade : t'.unmade + job.size = t.unmade + next.size := tally fun _ => CallJob.size
    have hturned := t.world.turned step t.now job
    change (t.world.turn step t.now job).2 = .wait d next at turn
    change t'.world = (t.world.turn step t.now job).1 at world
    generalize t.world.turn step t.now job = result at hturned turn world
    cases hturned with
    | finish => cases turn
    | retry index m taken =>
      -- the instance is taken, and it is free at the end of the wait
      cases turn
      have hworld : t'.world = t.world := world
      have hheld := tally t.world.held
      have hnow : t.world.held t.now (.call index m) = 1 := if_pos taken
      have hlater : t.world.held (t.now.after (Nanos.ofMillis (t.world.freeAt m - t.now)))
          (.call index m) = 0 :=
        if_neg (Nat.not_lt.mpr (CallRun.le_after_ofMillis _ _))
      have hsame : t'.unmade = t.unmade := by omega
      rw [hnow, hlater] at hheld
      rw [hworld, hsame]
      omega
    | atOnce => cases turn
    | take index m lasts takenUntil =>
      -- the call is made, and every other call may find the instance taken now
      cases turn
      have hone : t'.unmade + 1 = t.unmade := by
        simpa [CallJob.size] using hunmade
      have hheld := held_le_unmade (t := t')
      have hpairs := pairs_succ t'.unmade
      simp only [CallJob.size] at hwork
      rw [← hone, Nat.add_sub_cancel]
      omega

end Timeline

/-! ## The steps of a run -/

theorem workOf_mono {size size' : τ → Nat} (h : ∀ job, size job ≤ size' job)
    (lanes : List (Pacing × List τ)) : workOf size lanes ≤ workOf size' lanes := by
  have hjobs (jobs : List τ) : jobs.foldr (fun job n => 2 * size job + 8 + n) 4 ≤
      jobs.foldr (fun job n => 2 * size' job + 8 + n) 4 := by
    induction jobs with
    | nil => exact Nat.le_refl _
    | cons job rest ih =>
      have := h job
      simp only [List.foldr_cons]
      omega
  induction lanes with
  | nil => exact Nat.le_refl _
  | cons lane rest ih => exact Nat.add_le_add (hjobs lane.2) ih

theorem workOf_single (k : Nat) (p : Pacing) (jobs : List τ) :
    workOf (fun _ => k) [(p, jobs)] = jobs.length * (2 * k + 8) + 4 := by
  unfold workOf
  simp only [List.foldr_cons, List.foldr_nil, Nat.add_zero]
  induction jobs with
  | nil => simp
  | cons job rest ih =>
    rw [List.foldr_cons, ih, List.length_cons, Nat.add_mul rest.length 1]
    omega

/-- The jobs of a step before any of them has had a turn. -/
def callJobs (calls : List MeasurementCall) : List CallJob :=
  calls.zipIdx.map fun (m, i) => .call i m

theorem callRank_start_le (now : Millis) (calls : List MeasurementCall)
    (measurements : Measurements BuiltinState) :
    (Timeline.start now [(.immediate, callJobs calls)] { measurements }).callRank ≤
      workOf (fun _ => calls.length + 1) [(.immediate, callJobs calls)] := by
  let t : Timeline CallRun CallJob :=
    .start now [(.immediate, callJobs calls)] { measurements }
  have hsum (f : CallJob → Nat) : t.tally (fun _ => f) = ((callJobs calls).map f).sum := by
    have hstarter : (Token.starter 0 (Pacing.immediate.schedule (callJobs calls))).sum f =
        ((callJobs calls).map f).sum := by
      conv_rhs => rw [← Timeline.map_job_schedule .immediate (callJobs calls)]
      simp [Token.sum, Token.jobs, Function.comp_def]
    simpa [t, Timeline.tally, Timeline.start, parkedTokens, Lane.parkedToken] using hstarter
  have hheld : t.tally t.world.held = 0 := by
    have hnone : t.world.held = fun _ _ => 0 := by
      funext time job
      cases job with
      | call index m =>
        have hfree : t.world.freeAt m = 0 := rfl
        simp [CallRun.held, hfree]
      | finish => rfl
    rw [hnone, hsum]
    simp
  have hunmade : t.unmade = calls.length := by
    have hone : (CallJob.size ∘ fun x : MeasurementCall × Nat => CallJob.call x.2 x.1) =
        fun _ => 1 := rfl
    unfold Timeline.unmade
    rw [hsum, callJobs, List.map_map, hone]
    simp
  have hwork : t.work CallJob.size ≤ calls.length * 10 + 4 := by
    have hle := Timeline.work_start_le CallJob.size now [(.immediate, callJobs calls)]
      ({ measurements } : CallRun)
    have hone : workOf CallJob.size [(.immediate, callJobs calls)] ≤
        workOf (fun _ => 1) [(.immediate, callJobs calls)] :=
      workOf_mono (fun job => by cases job <;> simp [CallJob.size]) _
    rw [workOf_single] at hone
    have hlength : (callJobs calls).length = calls.length := by simp [callJobs]
    rw [hlength] at hone
    exact hle.trans hone
  have hlength : (callJobs calls).length = calls.length := by simp [callJobs]
  have hpairs : calls.length * (calls.length - 1) ≤ calls.length * calls.length :=
    Nat.mul_le_mul_left _ (Nat.sub_le _ _)
  have hbudget : calls.length * (2 * (calls.length + 1) + 8) =
      2 * (calls.length * calls.length) + calls.length * 10 := by ring
  change t.callRank ≤ _
  rw [workOf_single, hlength, Timeline.callRank, hheld, hunmade]
  omega

end ReplicaLoad

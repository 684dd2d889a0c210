-- The steps of calls. The calls of a step are a timeline with one lane, whose
-- starter starts them all before any of them has a turn. Its steps are told as
-- those of a trial are.
import ReplicaLoad.Proofs.CallRuns
import ReplicaLoad.Proofs.TrialSteps

namespace ReplicaLoad

namespace CallRun

variable {step : String} {now : Millis} {s : CallRun} {m : MeasurementCall}

/-- How long an instance takes for a call. -/
def lasts (s : CallRun) (now : Millis) (m : MeasurementCall) : Nanos :=
  (s.measurements.call now m.method m.identifier m.params).2.1

/-- What a call that takes its instance for a time leaves behind. -/
def taken (s : CallRun) (now : Millis) (m : MeasurementCall) : CallRun :=
  { s.called now m with
    takenUntil := s.takenUntil.put (m.method, m.identifier) (now.after (s.lasts now m)) }

theorem turn_retry (h : now < s.freeAt m) (i : Nat) :
    s.turn step now (.call i m) =
      (s, .wait (Nanos.ofMillis (s.freeAt m - now)) (.call i m)) := if_pos h

theorem turn_free (h : s.freeAt m ≤ now) (i : Nat) :
    s.turn step now (.call i m) =
      if s.lasts now m = 0 then ((s.called now m).finish step i m (s.outcome now m), .done)
      else (s.taken now m, .wait (s.lasts now m) (.finish i m (s.outcome now m))) := if_neg h.not_gt

end CallRun

abbrev CallState := Solo CallRun CallJob

/-- What a step of calls does, where they are all started at once. -/
inductive CallStep (step : String) (s : CallState) : CallState → Prop
  /-- Everything has ended. -/
  | leave {rest} (ready : s.ready = .starter 0 [] :: rest) (idle : s.lane.running = 0) :
      CallStep step s { s with ready := rest, lane := { s.lane with closed := true } }
  /-- All calls are started, and the starter waits for them to end. -/
  | park {rest} (ready : s.ready = .starter 0 [] :: rest) :
      CallStep step s { s with ready := rest, lane := { s.lane with parked := some [] } }
  | launch {q more rest} (ready : s.ready = .starter 0 (q :: more) :: rest) :
      CallStep step s { s with
        ready := .starter 0 more :: (rest ++ [.job 0 q.job])
        lane := s.lane.start }
  /-- A call finds its instance taken. -/
  | retry {i m rest} (ready : s.ready = .job 0 (.call i m) :: rest)
      (taken : s.now < s.world.freeAt m) :
      CallStep step s { s with
        ready := rest
        asleep := s.asleep ++ [(s.world.freeAt m, .job 0 (.call i m))] }
  /-- A call is made and ends in one turn. -/
  | brief {i m rest} (ready : s.ready = .job 0 (.call i m) :: rest)
      (free : s.world.freeAt m ≤ s.now) (instant : s.world.lasts s.now m = 0) :
      CallStep step s { s with
        ready := rest ++ s.lane.parkedToken 0
        lane := s.lane.finish
        world := (s.world.called s.now m).finish step i m (s.world.outcome s.now m) }
  /-- A call is made and takes its instance. -/
  | take {i m rest} (ready : s.ready = .job 0 (.call i m) :: rest)
      (free : s.world.freeAt m ≤ s.now) (lasts : s.world.lasts s.now m ≠ 0) :
      CallStep step s { s with
        ready := rest
        asleep := s.asleep ++
          [(s.now.after (s.world.lasts s.now m), .job 0 (.finish i m (s.world.outcome s.now m)))]
        world := s.world.taken s.now m }
  | finish {i m outcome rest} (ready : s.ready = .job 0 (.finish i m outcome) :: rest) :
      CallStep step s { s with
        ready := rest ++ s.lane.parkedToken 0
        lane := s.lane.finish
        world := s.world.finish step i m outcome }
  /-- The clock goes on. -/
  | wake {time} (ready : s.ready = []) (least : (s.asleep.map (·.1)).min? = some time) :
      CallStep step s { s with
        now := time
        ready := (s.asleep.filter (·.1 = time)).map (·.2)
        asleep := s.asleep.filter (·.1 ≠ time) }

variable {step : String} {s : CallState}

theorem exists_callStep_starter {waiting : List (Pending CallJob)} {rest : List (Token CallJob)}
    (hr : s.ready = .starter 0 waiting :: rest) (hpermits : s.lane.permits = none)
    (hprompt : ∀ q ∈ waiting, q.pause = 0 ∧ q.offset = 0) :
    ∃ s' : CallState, Timeline.starterTurn (callCrew step) { s.timeline with ready := rest } 0 s.lane
      waiting = s'.timeline ∧ CallStep step s s' := by
  cases waiting with
  | nil =>
    simp only [Timeline.starterTurn]
    split
    · next hidle => exact ⟨_, rfl, .leave hr hidle⟩
    · exact ⟨_, rfl, .park hr⟩
  | cons q more =>
    obtain ⟨hpause, hoffset⟩ := hprompt q List.mem_cons_self
    simp only [Timeline.starterTurn]
    rw [if_neg (not_not.mpr hpause), if_neg (by simp [hpermits]),
      if_neg (not_not.mpr hoffset)]
    exact ⟨_, rfl, .launch hr⟩

theorem exists_callStep_job {job : CallJob} {rest : List (Token CallJob)}
    (hr : s.ready = .job 0 job :: rest) :
    ∃ s' : CallState, Timeline.jobTurn (callCrew step) { s.timeline with ready := rest } 0 s.lane job =
      s'.timeline ∧ CallStep step s s' := by
  cases job with
  | finish i m outcome => exact ⟨_, Solo.jobTurn_done rfl rest, .finish hr⟩
  | call i m =>
    rcases Nat.lt_or_ge s.now (s.world.freeAt m) with htaken | hfree
    · have hpos : Nanos.ofMillis (s.world.freeAt m - s.now) ≠ 0 :=
        Nat.mul_ne_zero (Nat.sub_ne_zero_of_lt htaken) (by decide)
      refine ⟨_, Solo.jobTurn_wait (CallRun.turn_retry htaken i) hpos rest, ?_⟩
      rw [after_ofMillis, Nat.add_sub_cancel' htaken.le]
      exact .retry hr htaken
    · by_cases hlasts : s.world.lasts s.now m = 0
      · exact ⟨_, Solo.jobTurn_done ((CallRun.turn_free hfree i).trans (if_pos hlasts)) rest,
          .brief hr hfree hlasts⟩
      · exact ⟨_, Solo.jobTurn_wait ((CallRun.turn_free hfree i).trans (if_neg hlasts)) hlasts rest,
          .take hr hfree hlasts⟩

/-- Every step of calls is one of these, if they are all started at once. -/
theorem exists_callStep (ho : s.timeline.Orderly) (hpermits : s.lane.permits = none)
    (hprompt : ∀ waiting, .starter 0 waiting ∈ s.ready →
      ∀ q ∈ waiting, q.pause = 0 ∧ q.offset = 0)
    {t' : Timeline CallRun CallJob} (hs : s.timeline.step (callCrew step) = some t') :
    ∃ s' : CallState, t' = s'.timeline ∧ CallStep step s s' := by
  rcases Solo.step_cases ho hs with ⟨waiting, rest, hr, rfl⟩ | ⟨job, rest, hr, rfl⟩ |
    ⟨time, hr, htime, rfl⟩
  · exact exists_callStep_starter hr hpermits (hprompt waiting (hr ▸ List.mem_cons_self))
  · exact exists_callStep_job hr
  · exact ⟨_, rfl, .wake hr htime⟩

end ReplicaLoad

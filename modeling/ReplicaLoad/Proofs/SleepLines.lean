-- Lines of sleeps. In a step whose calls all sleep, the calls with one
-- identifier sleep one after another, in the order of the list, and calls with
-- different identifiers sleep beside each other. When each of them begins and
-- ends, and when the step returns, can be read off the list.
import Mathlib.Data.List.Induction
import ReplicaLoad.Proofs.SleepSteps

namespace ReplicaLoad

/-! ## Lists of sleeps -/

namespace Sleep

/-- How long the calls with an identifier sleep in all. -/
def total (calls : List MeasurementCall) (identifier : String) : Millis :=
  ((calls.filter (·.identifier = identifier)).map (·.millis)).sum

/-- How long the calls with an identifier sleep in all, where they do so the longest. -/
def longest (calls : List MeasurementCall) : Millis :=
  (calls.map fun m => total calls m.identifier).max?.getD 0

/-- The beginning of a call: the calls with its identifier that stand before it in the list have
ended. -/
def beginning (start : Millis) (calls : List MeasurementCall) (i : Nat) (m : MeasurementCall) :
    Millis :=
  start + total (calls.take i) m.identifier

def ending (start : Millis) (calls : List MeasurementCall) (i : Nat) (m : MeasurementCall) :
    Millis :=
  beginning start calls i m + m.millis

/-- The calls with an identifier, with their positions. -/
def line (calls : List MeasurementCall) (identifier : String) : List (MeasurementCall × Nat) :=
  calls.zipIdx.filter (·.1.identifier = identifier)

/-- How long a line of calls sleeps. -/
def spent (line : List (MeasurementCall × Nat)) : Millis := (line.map (·.1.millis)).sum

variable {calls : List MeasurementCall} {i : Nat} {m : MeasurementCall}

theorem total_append (calls more : List MeasurementCall) (identifier : String) :
    total (calls ++ more) identifier = total calls identifier + total more identifier := by
  simp [total, List.filter_append]

theorem total_singleton (m : MeasurementCall) : total [m] m.identifier = m.millis := by
  simp [total]

theorem total_map_fst (l : List (MeasurementCall × Nat)) (identifier : String) :
    total (l.map (·.1)) identifier = spent (l.filter (·.1.identifier = identifier)) := by
  simp [total, spent, List.filter_map, Function.comp_def]

theorem spent_line (calls : List MeasurementCall) (identifier : String) :
    spent (line calls identifier) = total calls identifier := by
  rw [line, ← total_map_fst, List.zipIdx_map_fst]

/-- What is left of a line begins with a call for which those before it in the list have ended. -/
theorem total_of_suffix {rest : List (MeasurementCall × Nat)}
    (h : (m, i) :: rest <:+ line calls m.identifier) :
    calls[i]? = some m ∧
      total (calls.take i) m.identifier + m.millis + spent rest = total calls m.identifier := by
  obtain ⟨gone, hgone⟩ := h
  obtain ⟨before, after, hzip, -, hafter⟩ := List.filter_eq_append_iff.mp hgone.symm
  obtain ⟨between, more, rfl, -, -, rfl⟩ := List.filter_eq_cons_iff.mp hafter
  rw [← List.append_assoc] at hzip
  have hcalls := congrArg (List.map (·.1)) hzip
  rw [List.zipIdx_map_fst, List.map_append, List.map_cons] at hcalls
  have hat := congrArg (·[(before ++ between).length]?) hzip
  simp only [List.getElem?_zipIdx, List.getElem?_append_right le_rfl, Nat.sub_self,
    List.getElem?_cons_zero, Option.map_eq_some_iff, Prod.mk.injEq, Nat.zero_add] at hat
  obtain ⟨_, hm, rfl, rfl⟩ := hat
  have htake : calls.take (before ++ between).length = (before ++ between).map (·.1) := by
    rw [hcalls, List.take_left' (List.length_map _)]
  refine ⟨hm, ?_⟩
  rw [htake]
  conv_rhs => rw [hcalls, ← List.singleton_append, total_append, total_append, total_singleton,
    total_map_fst more]
  exact Nat.add_assoc _ _ _

theorem total_take_le (h : calls[i]? = some m) :
    total (calls.take i) m.identifier + m.millis ≤ total calls m.identifier := by
  obtain ⟨hi, rfl⟩ := List.getElem?_eq_some_iff.mp h
  have hsplit : total (calls.take (i + 1)) calls[i].identifier +
      total (calls.drop (i + 1)) calls[i].identifier = total calls calls[i].identifier := by
    rw [← total_append, List.take_append_drop]
  rw [← List.take_concat_get' calls i hi, total_append, total_singleton] at hsplit
  exact Nat.le_of_add_right_le hsplit.le

/-- The last call with an identifier ends when all of them have slept. -/
theorem exists_last (h : m ∈ calls) : ∃ i last, calls[i]? = some last ∧
    total (calls.take i) last.identifier + last.millis = total calls m.identifier := by
  induction calls using List.reverseRecOn with
  | nil => cases h
  | append_singleton calls c ih =>
    by_cases hc : c.identifier = m.identifier
    · refine ⟨calls.length, c, List.getElem?_concat_length, ?_⟩
      rw [List.take_left, ← hc, total_append, total_singleton]
    · have hmem : m ∈ calls := by
        rcases List.mem_append.mp h with h | h
        · exact h
        · exact absurd (congrArg MeasurementCall.identifier (List.mem_singleton.mp h).symm) hc
      obtain ⟨i, last, hi, hlast⟩ := ih hmem
      have hlt : i < calls.length := (List.getElem?_eq_some_iff.mp hi).1
      refine ⟨i, last, by rwa [List.getElem?_append_left hlt], ?_⟩
      have hother : total [c] m.identifier = 0 := by simp [total, hc]
      rw [List.take_append_of_le_length hlt.le, hlast, total_append, hother, Nat.add_zero]

end Sleep

/-! ## Calls on schedule -/

/-- The jobs that have not ended, be they started or not. -/
def Timeline.jobs {ω τ : Type} (t : Timeline ω τ) : List τ := (t.tokens.flatMap Token.jobs).map (·.2)

/-- A moment of calls that are on schedule: a call that was not made yet has still time, one that
sleeps does so between its beginning and its end, and one that is over has reached its end. -/
structure Sleep.Punctual (start : Millis) (calls : List MeasurementCall)
    (t : Timeline CallRun CallJob) : Prop where
  waits : ∀ i m, .call i m ∈ t.jobs → calls[i]? = some m ∧ t.now ≤ beginning start calls i m
  sleeps : ∀ i m outcome, .finish i m outcome ∈ t.jobs → calls[i]? = some m ∧
    beginning start calls i m ≤ t.now ∧ t.now ≤ ending start calls i m
  ended : ∀ i m, calls[i]? = some m → .call i m ∉ t.jobs →
    (∀ outcome, .finish i m outcome ∉ t.jobs) → ending start calls i m ≤ t.now

namespace Solo

open Sleep

/-- Every line of calls is on schedule: the next call is made as soon as its instance is free, which
is when the calls before it have slept, and each call sleeps as long as it should. -/
structure Scheduled (start : Millis) (calls : List MeasurementCall) (s : CallState) : Prop where
  line : ∀ identifier, s.waiting identifier <:+ line calls identifier
  next : ∀ identifier, s.waiting identifier ≠ [] →
    max s.now (s.free identifier) + spent (s.waiting identifier) = start + total calls identifier
  sleeping : ∀ time m i, (time, m, i) ∈ s.sleeping → calls[i]? = some m ∧
    time = ending start calls i m ∧ beginning start calls i m ≤ s.now ∧ s.now ≤ time
  every : ∀ i m, calls[i]? = some m → (m, i) ∈ s.waiting m.identifier ∨
    (ending start calls i m, m, i) ∈ s.sleeping ∨ ending start calls i m ≤ s.now
  since : start ≤ s.now
  prompt : s.now = start ∨ ∃ m ∈ calls, s.now ≤ start + total calls m.identifier

variable {start : Millis} {calls : List MeasurementCall} {s s' : CallState} {m : MeasurementCall}
  {i : Nat}

/-- A call is made on time. -/
theorem Begins.on_time (hb : Begins s s' m i) (h : s.Scheduled start calls) :
    calls[i]? = some m ∧ s.now = beginning start calls i m ∧
      s.now + m.millis + spent (s'.waiting m.identifier) = start + total calls m.identifier := by
  have hwaiting : s.waiting m.identifier = (m, i) :: s'.waiting m.identifier := by
    simpa using hb.waiting m.identifier
  have hsuffix := h.line m.identifier
  -- the instance is free, so the time at which it is the turn of the call is now
  have hnext := h.next m.identifier (by simp [hwaiting])
  rw [hwaiting] at hsuffix
  rw [hwaiting, max_eq_left hb.free] at hnext
  have hspent : spent ((m, i) :: s'.waiting m.identifier) =
      m.millis + spent (s'.waiting m.identifier) := rfl
  obtain ⟨hm, htotal⟩ := total_of_suffix hsuffix
  refine ⟨hm, ?_, ?_⟩
  · rw [beginning]
    grind
  · grind

theorem Begins.line (hb : Begins s s' m i) (h : s.Scheduled start calls) (identifier : String) :
    s'.waiting identifier <:+ line calls identifier :=
  List.IsSuffix.trans ⟨_, (hb.waiting identifier).symm⟩ (h.line identifier)

theorem Begins.next (hb : Begins s s' m i) (h : s.Scheduled start calls) (identifier : String)
    (hne : s'.waiting identifier ≠ []) :
    max s'.now (s'.free identifier) + spent (s'.waiting identifier) =
      start + total calls identifier := by
  rw [hb.now]
  by_cases hm : m.identifier = identifier
  · subst hm
    rw [hb.taken]
    exact (hb.on_time h).2.2
  · have hsame : s.waiting identifier = s'.waiting identifier := by
      simpa [hm] using hb.waiting identifier
    rw [hb.others identifier hm, ← hsame]
    exact h.next identifier (hsame ▸ hne)

theorem Begins.mem_waiting (hb : Begins s s' m i) {other : MeasurementCall} {j : Nat}
    (h : (other, j) ∈ s.waiting other.identifier) :
    other = m ∧ j = i ∨ (other, j) ∈ s'.waiting other.identifier := by
  rw [hb.waiting, List.mem_append] at h
  refine h.imp (fun h => ?_) id
  split at h
  · exact Prod.mk.inj (List.mem_singleton.mp h)
  · cases h

theorem Scheduled.brief (h : s.Scheduled start calls) (hb : Begins s s' m i) (instant : m.millis = 0)
    (sleeping : s'.sleeping.Perm s.sleeping) : s'.Scheduled start calls := by
  obtain ⟨-, hnow, -⟩ := hb.on_time h
  refine ⟨hb.line h, hb.next h, fun time other j hd => ?_, fun j other hj => ?_, ?_, ?_⟩
  · rw [hb.now]
    exact h.sleeping time other j (sleeping.subset hd)
  · rw [hb.now]
    rcases h.every j other hj with hwaiting | hsleeping | hended
    · rcases hb.mem_waiting hwaiting with ⟨rfl, rfl⟩ | hwaiting
      · -- it has begun, and it ends at the same time
        rw [ending, instant, Nat.add_zero, ← hnow]
        exact Or.inr (Or.inr le_rfl)
      · exact Or.inl hwaiting
    · exact Or.inr (Or.inl (sleeping.symm.subset hsleeping))
    · exact Or.inr (Or.inr hended)
  · rw [hb.now]
    exact h.since
  · rw [hb.now]
    exact h.prompt

theorem Scheduled.take (h : s.Scheduled start calls) (hb : Begins s s' m i)
    (sleeping : s'.sleeping.Perm ((s.now + m.millis, m, i) :: s.sleeping)) :
    s'.Scheduled start calls := by
  obtain ⟨hm, hnow, -⟩ := hb.on_time h
  have hending : ending start calls i m = s.now + m.millis := by rw [ending, ← hnow]
  refine ⟨hb.line h, hb.next h, fun time other j hd => ?_, fun j other hj => ?_, ?_, ?_⟩
  · rw [hb.now]
    rcases List.mem_cons.mp (sleeping.subset hd) with heq | hd
    · cases heq
      exact ⟨hm, hending.symm, hnow.ge, Nat.le_add_right _ _⟩
    · exact h.sleeping time other j hd
  · rw [hb.now]
    rcases h.every j other hj with hwaiting | hsleeping | hended
    · rcases hb.mem_waiting hwaiting with ⟨rfl, rfl⟩ | hwaiting
      · rw [hending]
        exact Or.inr (Or.inl (sleeping.symm.subset List.mem_cons_self))
      · exact Or.inl hwaiting
    · exact Or.inr (Or.inl (sleeping.symm.subset (List.mem_cons_of_mem _ hsleeping)))
    · exact Or.inr (Or.inr hended)
  · rw [hb.now]
    exact h.since
  · rw [hb.now]
    exact h.prompt

theorem Scheduled.wake (h : s.Scheduled start calls) (waiting : s'.waiting = s.waiting)
    (free : s'.free = s.free) (sleeping : s'.sleeping.Perm s.sleeping) (later : s.now ≤ s'.now)
    (held : ∀ identifier, s.waiting identifier ≠ [] → s'.now ≤ s.free identifier)
    (due : ∀ d ∈ s.sleeping, s'.now ≤ d.1)
    (cause : (∃ identifier, s.waiting identifier ≠ [] ∧ s'.now = s.free identifier) ∨
      ∃ d ∈ s.sleeping, s'.now = d.1) : s'.Scheduled start calls := by
  refine ⟨fun identifier => ?_, fun identifier hne => ?_, fun time m i hd => ?_, fun i m hm => ?_,
    h.since.trans later, Or.inr ?_⟩
  · rw [waiting]
    exact h.line identifier
  · -- the clock does not go on beyond the moment at which the instance is free
    rw [waiting] at hne
    have hheld := held identifier hne
    rw [waiting, free, max_eq_right hheld, ← h.next identifier hne, max_eq_right (later.trans hheld)]
  · have hd := sleeping.subset hd
    obtain ⟨hm, htime, hbegun, -⟩ := h.sleeping time m i hd
    exact ⟨hm, htime, hbegun.trans later, due _ hd⟩
  · rw [waiting]
    exact (h.every i m hm).imp id (Or.imp (sleeping.symm.subset ·) later.trans')
  · rcases cause with ⟨identifier, hne, hnow⟩ | ⟨⟨time, m, i⟩, hd, hnow⟩
    · obtain ⟨c, hc⟩ := List.exists_mem_of_ne_nil _ hne
      obtain ⟨hmem, hid⟩ := List.mem_filter.mp ((h.line identifier).subset hc)
      have hid : c.1.identifier = identifier := by simpa using hid
      refine ⟨c.1, (List.mem_zipIdx hmem).2.2 ▸ List.getElem_mem _, ?_⟩
      rw [hid, ← h.next identifier hne, hnow]
      exact (le_max_right _ _).trans (Nat.le_add_right _ _)
    · obtain ⟨hm, htime, -⟩ := h.sleeping time m i hd
      refine ⟨m, List.mem_of_getElem? hm, ?_⟩
      rw [hnow, htime, ending, beginning, Nat.add_assoc]
      exact Nat.add_le_add_left (total_take_le hm) start

theorem Scheduled.step (h : s.Scheduled start calls) (hs : SleepMove s s') :
    s'.Scheduled start calls := by
  cases hs with
  | still now waiting free sleeping =>
    refine ⟨?_, ?_, fun time m i hd => ?_, fun i m hm => ?_, now ▸ h.since, now ▸ h.prompt⟩
    · rw [waiting]
      exact h.line
    · rw [waiting, now, free]
      exact h.next
    · rw [now]
      exact h.sleeping time m i (sleeping.subset hd)
    · rw [waiting, now]
      exact (h.every i m hm).imp id (Or.imp (sleeping.symm.subset ·) id)
  | brief begins instant sleeping => exact h.brief begins instant sleeping
  | take begins sleeping => exact h.take begins sleeping
  | finish now waiting free sleeping =>
    refine ⟨?_, ?_, fun time m i hd => ?_, fun i m hm => ?_, now ▸ h.since, now ▸ h.prompt⟩
    · rw [waiting]
      exact h.line
    · rw [waiting, now, free]
      exact h.next
    · rw [now]
      exact h.sleeping time m i (sleeping.symm.subset (List.mem_cons_of_mem _ hd))
    · rw [waiting, now]
      rcases h.every i m hm with hwaiting | hsleeping | hended
      · exact Or.inl hwaiting
      · rcases List.mem_cons.mp (sleeping.subset hsleeping) with heq | hsleeping
        · exact Or.inr (Or.inr (congrArg Prod.fst heq).le)
        · exact Or.inr (Or.inl hsleeping)
      · exact Or.inr (Or.inr hended)
  | wake waiting free sleeping later held due cause =>
    exact h.wake waiting free sleeping later held due cause

/-! ## From the beginning on -/

/-- The calls of a step before any of them is started. -/
def beginCalls (start : Millis) (calls : List MeasurementCall)
    (measurements : Measurements BuiltinState) : CallState where
  now := start
  ready := [.starter 0 (Pacing.immediate.schedule (callJobs calls))]
  asleep := []
  lane := { permits := none }
  world := { measurements }

theorem plain_beginCalls {measurements : Measurements BuiltinState}
    (hmethod : measurements.methods.get? "Sleep" = some sleepMethod)
    (hsleeps : ∀ m ∈ calls, m.IsSleep) : (beginCalls start calls measurements).Plain where
  method := hmethod
  errors := rfl
  permits := rfl
  parked := nofun
  ready := by
    intro token hmem
    rw [List.mem_singleton.mp hmem]
    intro q hq
    obtain ⟨⟨job, k⟩, hjob, rfl⟩ := List.mem_map.mp hq
    obtain ⟨⟨m, i⟩, hm, rfl⟩ := List.mem_map.mp (List.fst_mem_of_mem_zipIdx hjob)
    exact ⟨rfl, rfl, hsleeps m (List.fst_mem_of_mem_zipIdx hm), rfl⟩
  asleep := nofun

theorem waiting_beginCalls (start : Millis) (calls : List MeasurementCall)
    (measurements : Measurements BuiltinState) (identifier : String) :
    (beginCalls start calls measurements).waiting identifier = line calls identifier := by
  have hjobs : (Pacing.immediate.schedule (callJobs calls)).flatMap (·.job.unmade) =
      (callJobs calls).flatMap CallJob.unmade := by
    conv_rhs => rw [← Timeline.map_job_schedule .immediate (callJobs calls), List.flatMap_map]
  have hcalls : (callJobs calls).flatMap CallJob.unmade = calls.zipIdx := by
    simp [callJobs, List.flatMap_map, CallJob.unmade]
  rw [waiting, line, queue, beginCalls]
  simp [Token.asked, Token.unasked, hjobs, hcalls]

theorem scheduled_beginCalls (start : Millis) (calls : List MeasurementCall)
    (measurements : Measurements BuiltinState) :
    (beginCalls start calls measurements).Scheduled start calls where
  line identifier := ⟨[], waiting_beginCalls start calls measurements identifier⟩
  next identifier _ := by
    rw [waiting_beginCalls, spent_line]
    exact congrArg (· + _) (max_eq_left (Nat.zero_le start))
  sleeping time m i hd := by cases hd
  every i m hm := by
    rw [waiting_beginCalls]
    refine Or.inl (List.mem_filter.mpr ⟨?_, by simp⟩)
    exact List.mem_zipIdx_iff_getElem?.mpr hm
  since := le_rfl
  prompt := Or.inl rfl

theorem Scheduled.steps {name : String} (ho : s.timeline.Orderly) (hp : s.Plain)
    (h : s.Scheduled start calls) (fuel : Nat) :
    ∃ s' : CallState, s'.timeline.Orderly ∧ s'.Plain ∧ s'.Scheduled start calls ∧
      s.timeline.steps (callCrew name) fuel = s'.timeline := by
  induction fuel generalizing s with
  | zero => exact ⟨s, ho, hp, h, rfl⟩
  | succ fuel ih =>
    unfold Timeline.steps
    cases hs : s.timeline.step (callCrew name) with
    | none => exact ⟨s, ho, hp, h, rfl⟩
    | some t' =>
      have hprompt : ∀ waiting, .starter 0 waiting ∈ s.ready → ∀ q ∈ waiting,
          q.pause = 0 ∧ q.offset = 0 := fun waiting hmem q hq =>
        ⟨(hp.ready _ hmem q hq).1, (hp.ready _ hmem q hq).2.1⟩
      have ho' := (Timeline.step_move ho hs).orderly ho
      obtain ⟨s', rfl, hstep⟩ := exists_callStep ho hp.permits hprompt hs
      exact ih ho' (hp.step hstep) (h.step (exists_sleepMove ho hp hstep))

/-! ### At each moment -/

theorem mem_unmade {job : CallJob} : (m, i) ∈ job.unmade ↔ job = .call i m := by
  cases job <;> simp [CallJob.unmade, and_comm, eq_comm]

theorem mem_made {job : CallJob} : (m, i) ∈ job.made ↔ ∃ outcome, job = .finish i m outcome := by
  cases job <;> simp [CallJob.made, and_comm, eq_comm]

theorem call_mem_token {token : Token CallJob} :
    .call i m ∈ token.jobs.map (·.2) ↔ (m, i) ∈ token.asked ∨ (m, i) ∈ token.unasked := by
  cases token <;> simp [Token.jobs, Token.asked, Token.unasked, mem_unmade, eq_comm]

theorem finish_mem_token {token : Token CallJob} (h : token.IsPlain) (time : Millis) :
    (∃ outcome, .finish i m outcome ∈ token.jobs.map (·.2)) ↔
      ∃ ending, (ending, m, i) ∈ token.due time := by
  cases token with
  | job lane job => simp [Token.jobs, Token.due, mem_made, eq_comm]
  | starter lane waiting =>
    -- a starter has only calls to start
    have hnone : ∀ q ∈ waiting, ∀ outcome, q.job ≠ .finish i m outcome := by
      intro q hq outcome heq
      have hmade := (h q hq).2.2.2
      rw [heq] at hmade
      cases hmade
    simpa [Token.jobs, Token.due] using fun outcome q hq => hnone q hq outcome

/-- What has not ended belongs to a token that is ready or asleep. -/
theorem Plain.mem_jobs (h : s.Plain) {job : CallJob} : job ∈ s.timeline.jobs ↔
    (∃ token ∈ s.ready, job ∈ token.jobs.map (·.2)) ∨
      ∃ x ∈ s.asleep, job ∈ x.2.jobs.map (·.2) := by
  have hparked : (s.lane.parkedToken 0).flatMap Token.jobs = [] := by
    rcases h.parkedToken with h | h <;> rw [h] <;> rfl
  rw [Timeline.jobs, tokens_timeline, List.flatMap_append, List.flatMap_append, hparked,
    List.append_nil, List.flatMap_map, List.map_append, List.mem_append, List.map_flatMap,
    List.mem_flatMap, List.map_flatMap, List.mem_flatMap]

theorem Plain.call_mem_jobs (h : s.Plain) : .call i m ∈ s.timeline.jobs ↔ (m, i) ∈ s.queue := by
  have hasleep : ∀ x ∈ s.asleep, (m, i) ∉ x.2.unasked := fun x hx => by
    rw [h.unasked_asleep x hx]
    exact List.not_mem_nil
  rw [h.mem_jobs, queue, List.mem_append, List.flatMap_append, List.mem_append, List.flatMap_map]
  simp only [call_mem_token, List.mem_flatMap]
  constructor
  · rintro (⟨token, ht, hc | hc⟩ | ⟨x, hx, hc⟩)
    · exact Or.inl (Or.inr ⟨token, ht, hc⟩)
    · exact Or.inr ⟨token, ht, hc⟩
    · exact Or.inl (Or.inl ⟨x, hx, hc.resolve_right (hasleep x hx)⟩)
  · rintro ((⟨x, hx, hc⟩ | ⟨token, ht, hc⟩) | ⟨token, ht, hc⟩)
    · exact Or.inr ⟨x, hx, Or.inl hc⟩
    · exact Or.inl ⟨token, ht, Or.inl hc⟩
    · exact Or.inl ⟨token, ht, Or.inr hc⟩

theorem Plain.finish_mem_jobs (h : s.Plain) :
    (∃ outcome, .finish i m outcome ∈ s.timeline.jobs) ↔ ∃ time, (time, m, i) ∈ s.sleeping := by
  have hasleep : ∀ x ∈ s.asleep, x.2.IsPlain := by
    intro x hx
    obtain ⟨-, job, hjob, hplain, -⟩ := h.asleep x hx
    rw [hjob]
    exact hplain
  constructor
  · rintro ⟨outcome, hf⟩
    rcases h.mem_jobs.mp hf with ⟨token, ht, hf⟩ | ⟨x, hx, hf⟩
    · obtain ⟨time, hd⟩ := (finish_mem_token (h.ready token ht) s.now).mp ⟨outcome, hf⟩
      exact ⟨time, List.mem_append_left _ (List.mem_flatMap.mpr ⟨token, ht, hd⟩)⟩
    · obtain ⟨time, hd⟩ := (finish_mem_token (hasleep x hx) x.1).mp ⟨outcome, hf⟩
      exact ⟨time, List.mem_append_right _ (List.mem_flatMap.mpr ⟨x, hx, hd⟩)⟩
  · rintro ⟨time, hd⟩
    rcases List.mem_append.mp hd with hd | hd
    · obtain ⟨token, ht, hd⟩ := List.mem_flatMap.mp hd
      obtain ⟨outcome, hf⟩ := (finish_mem_token (h.ready token ht) s.now).mpr ⟨time, hd⟩
      exact ⟨outcome, h.mem_jobs.mpr (Or.inl ⟨token, ht, hf⟩)⟩
    · obtain ⟨x, hx, hd⟩ := List.mem_flatMap.mp hd
      obtain ⟨outcome, hf⟩ := (finish_mem_token (hasleep x hx) x.1).mpr ⟨time, hd⟩
      exact ⟨outcome, h.mem_jobs.mpr (Or.inr ⟨x, hx, hf⟩)⟩

/-- What is waiting of a line has its time still before it. -/
theorem Scheduled.now_le (h : s.Scheduled start calls) (hc : (m, i) ∈ s.queue) :
    calls[i]? = some m ∧ s.now ≤ beginning start calls i m := by
  have hwaiting : (m, i) ∈ s.waiting m.identifier := List.mem_filter.mpr ⟨hc, by simp⟩
  obtain ⟨before, rest, hsplit⟩ := List.append_of_mem hwaiting
  have hsuffix : (m, i) :: rest <:+ Sleep.line calls m.identifier :=
    List.IsSuffix.trans ⟨before, hsplit.symm⟩ (h.line m.identifier)
  obtain ⟨hm, htotal⟩ := total_of_suffix hsuffix
  have hnext := h.next m.identifier (List.ne_nil_of_mem hwaiting)
  have hspent : spent (s.waiting m.identifier) = spent before + (m.millis + spent rest) := by
    simp [hsplit, spent]
  have hle : s.now ≤ max s.now (s.free m.identifier) := le_max_left _ _
  refine ⟨hm, ?_⟩
  rw [beginning]
  grind

theorem Scheduled.punctual (hp : s.Plain) (h : s.Scheduled start calls) :
    Punctual start calls s.timeline where
  waits i m hc := h.now_le (hp.call_mem_jobs.mp hc)
  sleeps i m outcome hf := by
    obtain ⟨time, hd⟩ := hp.finish_mem_jobs.mp ⟨outcome, hf⟩
    obtain ⟨hm, rfl, hle⟩ := h.sleeping time m i hd
    exact ⟨hm, hle⟩
  ended i m hm hc hf := by
    rcases h.every i m hm with hwaiting | hsleeping | hended
    · exact absurd (hp.call_mem_jobs.mpr (List.mem_of_mem_filter hwaiting)) hc
    · obtain ⟨outcome, hmem⟩ := hp.finish_mem_jobs.mpr ⟨_, hsleeping⟩
      exact absurd hmem (hf outcome)
    · exact hended

/-- Once all calls are over the clock shows how long the longest line has slept. -/
theorem Scheduled.now_eq (hp : s.Plain) (h : s.Scheduled start calls) (hj : s.timeline.jobs = []) :
    s.now = start + longest calls := by
  have hslept : ∀ m ∈ calls, total calls m.identifier ≤ s.now - start := by
    intro m hm
    obtain ⟨i, last, hlast, htotal⟩ := exists_last hm
    have hended : ending start calls i last ≤ s.now :=
      (h.punctual hp).ended i last hlast (by simp [hj]) (by simp [hj])
    rw [ending, beginning, Nat.add_assoc, htotal] at hended
    exact Nat.le_sub_of_add_le' hended
  have hnow : s.now - start = longest calls := by
    refine eq_max?_getD (fun time htime => ?_) ?_
    · obtain ⟨m, hm, rfl⟩ := List.mem_map.mp htime
      exact hslept m hm
    · rcases h.prompt with hnow | ⟨m, hm, hle⟩
      · exact Or.inl (Nat.sub_eq_zero_of_le hnow.le)
      · exact Or.inr ⟨_, List.mem_map_of_mem hm, Nat.sub_le_iff_le_add'.mpr hle⟩
  rw [← hnow, Nat.add_sub_cancel' h.since]

end Solo

/-! ## Whole steps -/

namespace World

/-- The calls of a step after some steps of their timeline, of which `callAll` takes as many as there
are. -/
def callsAfter (w : World) (step : String) (now : Millis) (calls : List MeasurementCall)
    (count : Nat) : Timeline CallRun CallJob :=
  (Timeline.start now [(.immediate, callJobs calls)] { measurements := w.measurements }).steps
    (callCrew step) count

theorem orderly_callJobs (now : Millis) (calls : List MeasurementCall)
    (measurements : Measurements BuiltinState) :
    (Timeline.start now [(.immediate, callJobs calls)] ({ measurements } : CallRun)).Orderly := by
  refine Timeline.orderly_start now (fun lane hl => ?_) _
  rw [List.mem_singleton.mp hl]
  exact nofun

/-- A step returns at a moment at which all calls are over. -/
theorem callAll_eq (w : World) (step : String) (now : Millis) (calls : List MeasurementCall) :
    ∃ count, (w.callsAfter step now calls count).jobs = [] ∧ w.callAll step now calls =
      ((w.callsAfter step now calls count).world.errors,
        { w with measurements := (w.callsAfter step now calls count).world.measurements },
        (w.callsAfter step now calls count).now) := by
  refine ⟨workOf (fun _ => calls.length + 1) [(.immediate, callJobs calls)], ?_, rfl⟩
  have hstep : ∀ {t t' : Timeline CallRun CallJob}, t.Orderly → t.Ahead →
      t.step (callCrew step) = some t' → t'.Ahead ∧ t'.callRank < t.callRank :=
    fun ho ha hs => ⟨Timeline.ahead_step ha hs, Timeline.callRank_lt ho ha hs⟩
  obtain ⟨pool, -, hp, ho, hnone⟩ := Timeline.steps_pooled hstep
    (callRank_start_le now calls w.measurements) (orderly_callJobs now calls w.measurements) nofun
    (Timeline.pooled_start now _ _)
  have hjobs := hp.jobs
  rw [ho.ended hnone hp] at hjobs
  rw [Timeline.jobs, List.map_eq_nil_iff]
  exact hjobs.nil_eq.symm

theorem callsAfter_scheduled {w : World} {calls : List MeasurementCall}
    (hmethod : w.measurements.methods.get? "Sleep" = some sleepMethod)
    (hsleeps : ∀ m ∈ calls, m.IsSleep) (step : String) (now : Millis) (count : Nat) :
    ∃ t : CallState, t.Plain ∧ t.Scheduled now calls ∧
      w.callsAfter step now calls count = t.timeline := by
  have ho : (Solo.beginCalls now calls w.measurements).timeline.Orderly :=
    orderly_callJobs now calls w.measurements
  obtain ⟨t, -, hp, ht, heq⟩ := (Solo.scheduled_beginCalls now calls w.measurements).steps ho
    (Solo.plain_beginCalls hmethod hsleeps) count
  exact ⟨t, hp, ht, heq⟩

end World

/-- The calls of a step that sleep do so without errors. Those with one identifier sleep one after
another in the order of the list, from the beginning of the step on, and beside those with other
identifiers; and the step returns when the longest of these lines has slept. -/
theorem sleeps_in_line (w : World) (env : Environment) (now : Millis) {s : Step}
    (hmethod : w.measurements.methods.get? "Sleep" = some sleepMethod)
    (hsleeps : ∀ m ∈ s.measurements, m.IsSleep) (hphases : s.measurements = [] → s.phases = []) :
    (w.runStep env now s).1 = {} ∧
    (w.runStep env now s).2.2 = now + Sleep.longest s.measurements ∧
    ∀ count, Sleep.Punctual now s.measurements
      (w.callsAfter s.displayName now s.measurements count) := by
  have hpunctual : ∀ count, Sleep.Punctual now s.measurements
      (w.callsAfter s.displayName now s.measurements count) := by
    intro count
    obtain ⟨t, hp, ht, heq⟩ := World.callsAfter_scheduled hmethod hsleeps s.displayName now count
    rw [heq]
    exact ht.punctual hp
  by_cases hempty : s.measurements = []
  · have hrun : w.runStep env now s = ({}, w, now) := by
      simp only [World.runStep, hempty, hphases hempty, List.isEmpty_nil, if_true]
      rfl
    rw [hrun, hempty]
    exact ⟨rfl, rfl, hempty ▸ hpunctual⟩
  · have hrun : w.runStep env now s = w.callAll s.displayName now s.measurements := by
      simp [World.runStep, hempty]
    obtain ⟨count, hover, hall⟩ := w.callAll_eq s.displayName now s.measurements
    obtain ⟨t, hp, ht, heq⟩ := World.callsAfter_scheduled hmethod hsleeps s.displayName now count
    rw [heq] at hover hall
    rw [hrun, hall]
    exact ⟨hp.errors, ht.now_eq hp hover, hpunctual⟩

def napOf (identifier : String) (ms : Nat) : MeasurementCall where
  method := "Sleep"
  identifier := identifier
  params := .ofList [("durationMs", .int ms)]

/-- Two lines of sleeps, of which the first one takes longer. -/
def naps : Step where
  measurements := [napOf "a" 5, napOf "b" 3, napOf "a" 4, napOf "b" 2]

def plainEnvironment : Environment where
  templates := fun _ => .ok "kind: A"
  scope := "run"

theorem sleeps_in_line_naps :
    ({} : World).measurements.methods.get? "Sleep" = some sleepMethod ∧
    (∀ m ∈ naps.measurements, m.IsSleep) ∧ (naps.measurements = [] → naps.phases = []) ∧
    (({} : World).runStep plainEnvironment 100 naps).2.2 = 109 ∧
    ∀ count, .call 2 (napOf "a" 4) ∈ (({} : World).callsAfter "" 100 naps.measurements count).jobs →
      (({} : World).callsAfter "" 100 naps.measurements count).now ≤ 105 := by
  have hmethod : ({} : World).measurements.methods.get? "Sleep" = some sleepMethod := rfl
  have hsleeps : ∀ m ∈ naps.measurements, m.IsSleep := by
    simp only [naps, List.forall_mem_cons]
    exact ⟨⟨rfl, rfl⟩, ⟨rfl, rfl⟩, ⟨rfl, rfl⟩, ⟨rfl, rfl⟩, nofun⟩
  obtain ⟨-, htime, hpunctual⟩ := sleeps_in_line {} plainEnvironment 100 hmethod hsleeps nofun
  exact ⟨hmethod, hsleeps, nofun, htime, fun count h => ((hpunctual count).waits 2 _ h).2⟩

end ReplicaLoad

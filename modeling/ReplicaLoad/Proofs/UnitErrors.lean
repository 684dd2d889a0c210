-- The errors of units. The run of a step on the clock is one of the orders in
-- which its units can take their steps, and in every such order the step
-- returns what each of its units has returned, once, with one error of its own
-- for each unit that has crashed.
import ReplicaLoad.Proofs.CallRuns
import ReplicaLoad.Proofs.StepErrors
import ReplicaLoad.Proofs.TestErrors
import ReplicaLoad.Proofs.UnitProgress

namespace ReplicaLoad

/-! ## Phases -/

namespace StepRun

variable {env : Environment} {may : Outcomes} {step : String}

end StepRun

/-! ## Calls -/

/-- A call that has ended adds to the errors what the step has from the unit that makes it. -/
theorem CallRun.errors_finish (step : String) (s : CallRun) (index : Nat) (m : MeasurementCall)
    (outcome : CallOutcome) : (s.finish step index m outcome).errors.errors =
      s.errors.errors ++ (UnitEnd.ofOutcome m outcome).errors step index := by
  cases outcome with
  | summaries list => exact (List.append_nil _).symm
  | error e => rfl
  | crash reason => rfl

/-- The job of a unit at a position. -/
def StepUnit.job? (index : Nat) : StepUnit → Option CallJob
  | .call m => some (.call index m)
  | .answered m outcome => some (.finish index m outcome)
  | _ => none

/-- The jobs of units. -/
def jobsOf (units : List StepUnit) : List CallJob :=
  units.zipIdx.filterMap fun (u, i) => u.job? i

theorem jobsOf_middle (before after : List StepUnit) (u : StepUnit) :
    jobsOf (before ++ u :: after) = jobsOf before ++ ((u.job? before.length).toList ++
      (after.zipIdx (before.length + 1)).filterMap fun (u, i) => u.job? i) := by
  unfold jobsOf
  rw [List.zipIdx_append, List.filterMap_append, List.zipIdx_cons, Nat.zero_add]
  cases h : u.job? before.length with
  | none => simp [h]
  | some job => simp [h]

theorem exists_unit_of_mem_jobsOf {units : List StepUnit} {job : CallJob} (h : job ∈ jobsOf units) :
    ∃ before u after, units = before ++ u :: after ∧ u.job? before.length = some job := by
  obtain ⟨⟨u, i⟩, hu, hjob⟩ := List.mem_filterMap.mp h
  obtain ⟨before, after, rfl, rfl⟩ :=
    exists_split_of_getElem? (List.mk_mem_zipIdx_iff_getElem?.mp hu)
  exact ⟨before, u, after, rfl, hjob⟩

/-- The jobs when one unit is changed. -/
theorem jobsOf_perm {before after : List StepUnit} {u u' : StepUnit} {job : CallJob}
    {jobs : List CallJob} (hu : u.job? before.length = some job)
    (h : (job :: jobs).Perm (jobsOf (before ++ u :: after))) :
    ((u'.job? before.length).toList ++ jobs).Perm (jobsOf (before ++ u' :: after)) := by
  rw [jobsOf_middle, hu, Option.toList_some, List.singleton_append] at h
  have hothers := (h.trans List.perm_middle).cons_inv
  rw [jobsOf_middle]
  exact (hothers.append_left _).trans (List.perm_append_comm_assoc _ _ _)

namespace StepRun

variable {env : Environment} {may : Outcomes} {step : String} {w : World}
  {pool pool' : Pool CallRun CallJob} {t : StepRun}

/-- A step that calls measurements, and the jobs of a timeline that do so. -/
structure Mirrors (w : World) (pool : Pool CallRun CallJob) (t : StepRun) : Prop where
  world : t.world = { w with measurements := pool.world.measurements }
  errors : t.errors = pool.world.errors.errors
  jobs : (pool.jobs.map (·.2)).Perm (jobsOf t.units)
  units : ∀ u ∈ t.units, u.isJoined = true ∨ ∀ i, (u.job? i).isSome = true

/-- A call that has been answered is recorded and waited for. -/
theorem reaches_of_answered (w : World) (before after : List StepUnit) (m : MeasurementCall)
    (outcome : CallOutcome) (errors : List RunError) :
    Reaches env may step ⟨w, before ++ .answered m outcome :: after, errors⟩
      ⟨{ w with measurements := w.measurements.collect outcome },
        before ++ .joined (.ofOutcome m outcome) :: after,
        errors ++ (UnitEnd.ofOutcome m outcome).errors step before.length⟩ := by
  rw [← UnitEnd.own_append_noticed, ← List.append_assoc]
  exact .head ⟨_, .record rfl⟩ (.single ⟨_, .join⟩)

theorem Mirrors.change {before after : List StepUnit} {u : StepUnit} {job : CallJob}
    {errors : List RunError} {lane : Nat} {rest : List (Nat × CallJob)} {world : World}
    {next : Option CallJob} (h : Mirrors w pool ⟨world, before ++ u :: after, errors⟩)
    (u' : StepUnit) (s : CallRun)
    (hu : u.job? before.length = some job) (hjobs : pool.jobs.Perm ((lane, job) :: rest))
    (hu' : u'.isJoined = true ∨ ∀ i, (u'.job? i).isSome = true)
    (hnext : u'.job? before.length = next) :
    Mirrors w ⟨s, (next.map (lane, ·)).toList ++ rest, pool.lanes⟩
      ⟨{ w with measurements := s.measurements }, before ++ u' :: after, s.errors.errors⟩ where
  world := rfl
  errors := rfl
  jobs := by
    have hrest : (job :: rest.map (·.2)).Perm (jobsOf (before ++ u :: after)) :=
      (hjobs.map Prod.snd).symm.trans h.jobs
    have hmap : ((next.map (lane, ·)).toList ++ rest).map (·.2) =
        next.toList ++ rest.map (·.2) := by
      cases next <;> rfl
    rw [hmap, ← hnext]
    exact jobsOf_perm hu hrest
  units := by
    intro x hx
    rcases List.mem_append.mp hx with hx | hx
    · exact h.units x (List.mem_append_left _ hx)
    · rcases List.mem_cons.mp hx with rfl | hx
      · exact hu'
      · exact h.units x (List.mem_append_right _ (List.mem_cons_of_mem _ hx))

/-- The turn of a job is some steps of its unit. -/
theorem Mirrors.turn (h : Mirrors w pool t) {lane : Nat} {job : CallJob}
    {rest : List (Nat × CallJob)} (hjobs : pool.jobs.Perm ((lane, job) :: rest)) (now : Millis) :
    ∃ t', Reaches env may step t t' ∧ Mirrors w
      ⟨(pool.world.turn step now job).1,
        ((pool.world.turn step now job).2.next?.map (lane, ·)).toList ++ rest, pool.lanes⟩ t' := by
  obtain ⟨world, units, errors⟩ := t
  have hmem : job ∈ jobsOf units :=
    h.jobs.subset (List.mem_map_of_mem (hjobs.symm.subset List.mem_cons_self))
  obtain ⟨before, u, after, rfl, hu⟩ := exists_unit_of_mem_jobsOf hmem
  have hworld : world = { w with measurements := pool.world.measurements } := h.world
  have herrors : errors = pool.world.errors.errors := h.errors
  -- a turn ends the call, makes it, does both, or leaves its unit as it is
  have hturned := pool.world.turned step now job
  generalize pool.world.turn step now job = result at hturned
  cases hturned with
  | finish index m outcome =>
    obtain ⟨rfl, rfl⟩ : u = .answered m outcome ∧ index = before.length := by
      cases u <;> simp_all [StepUnit.job?]
    refine ⟨_, reaches_of_answered world before after m outcome errors, ?_⟩
    have hchange := h.change (.joined (.ofOutcome m outcome))
      (pool.world.finish step before.length m outcome) hu hjobs (.inl rfl) rfl
    rw [CallRun.measurements_finish, CallRun.errors_finish, ← herrors] at hchange
    rw [hworld]
    exact hchange
  | retry index m taken =>
    have hsame := h.change u pool.world hu hjobs (h.units u (by simp)) hu
    rw [← hworld, ← herrors] at hsame
    exact ⟨_, .refl, hsame⟩
  | atOnce index m =>
    obtain ⟨rfl, rfl⟩ : u = .call m ∧ index = before.length := by
      cases u <;> simp_all [StepUnit.job?]
    refine ⟨_, .head ⟨_, .move (.call now)⟩ (reaches_of_answered _ before after m _ errors), ?_⟩
    have hchange := h.change (.joined (.ofOutcome m (pool.world.outcome now m)))
      ((pool.world.called now m).finish step before.length m (pool.world.outcome now m))
      hu hjobs (.inl rfl) rfl
    rw [CallRun.measurements_finish, CallRun.errors_finish] at hchange
    rw [hworld, herrors]
    exact hchange
  | take index m lasts takenUntil =>
    obtain ⟨rfl, rfl⟩ : u = .call m ∧ index = before.length := by
      cases u <;> simp_all [StepUnit.job?]
    refine ⟨_, .single ⟨_, .move (.call now)⟩, ?_⟩
    have hchange := h.change (.answered m (pool.world.outcome now m))
      ({ pool.world.called now m with takenUntil }) hu hjobs (.inr fun _ => rfl) rfl
    rw [hworld, herrors]
    exact hchange

theorem Mirrors.reaches (h : Mirrors w pool t)
    (hr : Relation.ReflTransGen (Pool.Step (callCrew step)) pool pool') :
    ∃ t', Reaches env may step t t' ∧ Mirrors w pool' t' := by
  induction hr with
  | refl => exact ⟨t, .refl, h⟩
  | tail _ hs ih =>
    obtain ⟨t', hr, hm⟩ := ih
    cases hs with
    | turn now _ hjobs =>
      obtain ⟨t'', hr', hm'⟩ := hm.turn hjobs now
      exact ⟨t'', hr.trans hr', hm'⟩
    | close now _ _ => exact ⟨t', hr, ⟨hm.world, hm.errors, hm.jobs, hm.units⟩⟩

theorem mirrors_start (w : World) (calls : List MeasurementCall) :
    Mirrors w (Pool.start [(.immediate, callJobs calls)] { measurements := w.measurements })
      ⟨w, calls.map .call, []⟩ where
  world := rfl
  errors := rfl
  jobs := by
    have hjobs : jobsOf (calls.map .call) = callJobs calls := by
      unfold jobsOf callJobs
      rw [List.zipIdx_map, List.filterMap_map, ← List.filterMap_eq_map]
      rfl
    rw [hjobs]
    simp [Pool.start, Function.comp_def]
  units := by
    intro u hu
    obtain ⟨m, -, rfl⟩ := List.mem_map.mp hu
    exact .inr fun _ => rfl

/-- When no job is left all units have been waited for. -/
theorem Mirrors.complete (h : Mirrors w pool t) (hjobs : pool.jobs = []) : t.Complete := by
  intro u hu
  rcases h.units u hu with hj | hjob
  · exact hj
  · -- a unit that has not been waited for has a job
    obtain ⟨i, hi⟩ := List.getElem?_of_mem hu
    obtain ⟨job, hjob⟩ := Option.isSome_iff_exists.mp (hjob i)
    have hmem : job ∈ jobsOf t.units :=
      List.mem_filterMap.mpr ⟨(u, i), List.mk_mem_zipIdx_iff_getElem?.mpr hi, hjob⟩
    have hperm := h.jobs
    rw [hjobs] at hperm
    cases hperm.symm.subset hmem

/-! ## Steps -/

end StepRun

def StepUnit.isPhase : StepUnit → Bool
  | .phase _ => true
  | _ => false

namespace StepRun

variable {env : Environment} {may : Outcomes} {step : String}

/-- Only calls run, and only the measurements have changed. -/
def CallsOnly (w : World) (t : StepRun) : Prop :=
  (∀ u ∈ t.units, u.isPhase = false) ∧ t.world = { w with measurements := t.world.measurements }

theorem CallsOnly.next {w : World} {t t' : StepRun} (h : CallsOnly w t)
    (hs : Next env may step t t') : CallsOnly w t' := by
  obtain ⟨hphases, hworld⟩ := h
  -- a step changes one unit, and what it becomes is not a phase either
  have hchange {before after : List StepUnit} {u u' : StepUnit} (hu' : u'.isPhase = false)
      (hphases : ∀ x ∈ before ++ u :: after, x.isPhase = false) :
      ∀ x ∈ before ++ u' :: after, x.isPhase = false := by
    intro x hx
    rcases List.mem_append.mp hx with hx | hx
    · exact hphases x (List.mem_append_left _ hx)
    · rcases List.mem_cons.mp hx with rfl | hx
      · exact hu'
      · exact hphases x (List.mem_append_right _ (List.mem_cons_of_mem _ hx))
  obtain ⟨i, hs⟩ := hs
  cases hs with
  | @move _ _ before u u' after errors hu =>
    have hcall : u.isPhase = false := hphases u (by simp)
    cases hu with
    | call now =>
      refine ⟨hchange rfl hphases, ?_⟩
      simp only at hworld ⊢
      rw [hworld]
    | phase => cases hcall
    | crash => cases hcall
  | @record _ before u e after errors he =>
    refine ⟨hchange rfl hphases, ?_⟩
    simp only at hworld ⊢
    unfold StepUnit.leave
    split
    · rw [hworld]
    · exact hworld
  | join => exact ⟨hchange rfl hphases, hworld⟩

end StepRun

end ReplicaLoad

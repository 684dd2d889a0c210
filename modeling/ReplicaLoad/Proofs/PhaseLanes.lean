-- Phases on a timeline. Phases that are run beside each other on a timeline
-- take the steps of an interleaving: a turn of a job is some operations of its
-- action, and the end of a lane is the commits of its phase. So what holds of
-- every interleaving holds of every run.
import ReplicaLoad.Proofs.CrewRuns
import ReplicaLoad.Proofs.InOrder

namespace ReplicaLoad

/-! ## Turns of actions -/

namespace ActionJob

def action : ActionJob → Action
  | next a operations => { a with operations }
  | send a op _ operations => { a with operations := op :: operations }

/-- The request that a job has made is that of its next operation. -/
def Made (env : Environment) : ActionJob → Prop
  | next _ _ => True
  | send a op r _ => env.request op.object a.index op.operation = .ok r ∧
      env.client.crash? (op.object.objectName a.index) = none

end ActionJob

namespace PhaseRun

def after (s : PhaseRun) (phase : Nat) (done : Performed) : PhaseRun :=
  { s with
    world := done.world
    pending := s.pending.modify phase fun l => ⟨l.errors ++ done.error.toList⟩ }

theorem after_of_none (s : PhaseRun) (phase : Nat) (goesOn : Bool) (world : World) :
    s.after phase ⟨none, goesOn, world⟩ = { s with world } := by
  unfold after
  simp only [Option.toList_none, List.append_nil]
  congr
  exact List.modify_id _ _

/-- A request that has been made is sent as its operation is performed. -/
theorem send_eq {env : Environment} {a : Action} {op : ObjectOperation} {r : Request}
    (hr : env.request op.object a.index op.operation = .ok r)
    (hc : env.client.crash? (op.object.objectName a.index) = none) (s : PhaseRun) (phase : Nat) :
    s.send env.client phase a (op.object.objectName a.index) r =
      ((s.world.perform env a op).error.isNone, s.after phase (s.world.perform env a op)) ∧
    goesOn a (s.world.perform env a op).error.isNone = (s.world.perform env a op).goesOn := by
  unfold World.perform send
  rcases hs : s.world.send env.client a.ns (op.object.objectName a.index) r with ⟨_ | e, world⟩
  · simp only [hr, hc, hs, after_of_none]
    exact ⟨rfl, rfl⟩
  · simp only [hr, hc, hs]
    exact ⟨rfl, rfl⟩

/-- The next operation of an action is done, or has to wait for the cluster. -/
theorem operate_cons (env : Environment) (phase : Nat) (a : Action) (s : PhaseRun)
    (op : ObjectOperation) (rest : List ObjectOperation) :
    (∃ d r, s.operate env phase a (op :: rest) = (s, .wait d (.send a op r rest)) ∧
      (ActionJob.send a op r rest).Made env) ∨
    s.operate env phase a (op :: rest) =
      if (s.world.perform env a op).goesOn then
        operate env phase a (s.after phase (s.world.perform env a op)) rest
      else (s.after phase (s.world.perform env a op), .done) := by
  cases hr : env.request op.object a.index op.operation with
  | error e =>
    right
    simp only [operate, World.perform, hr]
    rfl
  | ok r =>
    cases hc : env.client.crash? (op.object.objectName a.index) with
    | some reason =>
      right
      simp only [operate, World.perform, hr, hc]
      rfl
    | none =>
      obtain ⟨hs, hg⟩ := send_eq hr hc s phase
      by_cases hl : env.client.latency = 0
      · right
        simp only [operate, hr, hc, hl, if_true, hs, hg]
      · left
        refine ⟨Nanos.ofMillis env.client.latency, r, ?_, hr, hc⟩
        simp only [operate, hr, hc, hl, if_false]

variable {env : Environment}

/-- Steps of a phase between two moments of a run, with the errors that they have recorded. -/
structure Advances (env : Environment) (phase : Nat) (commits : List (GroupKey × Instances))
    (s s' : PhaseRun) (errors new : List RunError) (actions actions' : List Action) : Prop where
  pending : s'.pending = s.pending.modify phase fun l => ⟨l.errors ++ new⟩
  ended : s'.ended = s.ended
  goes : PhaseState.Goes env env.performs (s.world, .acting errors actions commits)
    (s'.world, .acting (errors ++ new) actions' commits)

variable {phase : Nat} {commits : List (GroupKey × Instances)}

theorem Advances.trans {s s' s'' : PhaseRun} {errors new new' : List RunError}
    {actions actions' actions'' : List Action}
    (h : Advances env phase commits s s' errors new actions actions')
    (h' : Advances env phase commits s' s'' (errors ++ new) new' actions' actions'') :
    Advances env phase commits s s'' errors (new ++ new') actions actions'' where
  pending := by
    rw [h'.pending, h.pending, List.modify_modify_eq]
    congr 1
    funext l
    simp
  ended := h'.ended.trans h.ended
  goes := by
    have hg := h.goes.trans h'.goes
    rwa [List.append_assoc] at hg

/-- An operation that is done. -/
theorem perform_advances (env : Environment) (phase : Nat) (commits : List (GroupKey × Instances))
    (s : PhaseRun) (errors : List RunError) (before after : List Action) (a : Action)
    (op : ObjectOperation) (rest : List ObjectOperation) :
    Advances env phase commits s (s.after phase (s.world.perform env a op)) errors
      (s.world.perform env a op).error.toList
      (before ++ { a with operations := op :: rest } :: after)
      (before ++ ((s.world.perform env a op).remains a rest ++ after)) where
  pending := rfl
  ended := rfl
  goes := by
    have hdone : env.performs s.world { a with operations := op :: rest } op
        (s.world.perform env a op) := rfl
    exact PhaseState.Goes.step (.operate rfl hdone) .refl

theorem finish_advances (s : PhaseRun) (errors : List RunError) (before after : List Action)
    (a : Action) : Advances env phase commits s s errors []
      (before ++ { a with operations := [] } :: after) (before ++ after) where
  pending := by
    simp only [List.append_nil]
    exact (List.modify_id _ _).symm
  ended := rfl
  goes := by
    rw [List.append_nil]
    exact PhaseState.Goes.step (.finish rfl) .refl

/-- Operations up to a request that has to wait. -/
theorem operate_advances (env : Environment) (phase : Nat) (commits : List (GroupKey × Instances))
    (s : PhaseRun) (errors : List RunError) (before after : List Action) (a : Action)
    (operations : List ObjectOperation) :
    ∃ new, Advances env phase commits s (s.operate env phase a operations).1 errors new
        (before ++ { a with operations } :: after)
        (before ++ (((s.operate env phase a operations).2.next?.map ActionJob.action).toList ++
          after)) ∧
      ∀ job, (s.operate env phase a operations).2.next? = some job → job.Made env := by
  induction operations generalizing s errors with
  | nil => exact ⟨[], finish_advances s errors before after a, by simp [operate, Turn.next?]⟩
  | cons op rest ih =>
    rcases operate_cons env phase a s op rest with ⟨d, r, heq, hmade⟩ | heq
    · -- nothing has happened yet, but the request is on its way
      rw [heq]
      refine ⟨[], ⟨?_, rfl, ?_⟩, fun job hjob => Option.some.inj hjob ▸ hmade⟩
      · simp only [List.append_nil]
        exact (List.modify_id _ _).symm
      · rw [List.append_nil]
        exact .refl
    · rw [heq]
      have hp := perform_advances env phase commits s errors before after a op rest
      unfold Performed.remains at hp
      split
      · rename_i hgoes
        rw [if_pos hgoes] at hp
        obtain ⟨new, hnew, hmade⟩ := ih (s.after phase (s.world.perform env a op))
          (errors ++ (s.world.perform env a op).error.toList)
        exact ⟨_, hp.trans hnew, hmade⟩
      · rename_i hstops
        rw [if_neg hstops] at hp
        exact ⟨_, hp, by simp [Turn.next?]⟩

/-- A turn of an action. -/
theorem turn_advances (phase : Nat) (commits : List (GroupKey × Instances)) (s : PhaseRun)
    (errors : List RunError) (before after : List Action) {job : ActionJob}
    (hjob : job.Made env) :
    ∃ new, Advances env phase commits s (s.turn env phase job).1 errors new
        (before ++ job.action :: after)
        (before ++ (((s.turn env phase job).2.next?.map ActionJob.action).toList ++ after)) ∧
      ∀ next, (s.turn env phase job).2.next? = some next → next.Made env := by
  cases job with
  | next a operations => exact operate_advances env phase commits s errors before after a operations
  | send a op r rest =>
    obtain ⟨hr, hc⟩ := hjob
    obtain ⟨hs, hg⟩ := send_eq hr hc s phase
    have heq : s.turn env phase (.send a op r rest) =
        if (s.world.perform env a op).goesOn then
          operate env phase a (s.after phase (s.world.perform env a op)) rest
        else (s.after phase (s.world.perform env a op), .done) := by
      simp only [turn, hs, hg]
    have hp := perform_advances env phase commits s errors before after a op rest
    unfold Performed.remains at hp
    rw [heq]
    split
    · rename_i hgoes
      rw [if_pos hgoes] at hp
      obtain ⟨new, hnew, hmade⟩ := operate_advances env phase commits
        (s.after phase (s.world.perform env a op))
        (errors ++ (s.world.perform env a op).error.toList) before after a rest
      exact ⟨_, hp.trans hnew, hmade⟩
    · rename_i hstops
      rw [if_neg hstops] at hp
      exact ⟨_, hp, by simp [Turn.next?]⟩

/-- Every wait of an action comes before another one of its operations. -/
theorem sized_phaseCrew (env : Environment) (phases : List PlannedPhase) :
    (phaseCrew env phases).Sized ActionJob.size := by
  have hoperate : ∀ (a : Action) (operations : List ObjectOperation) (s : PhaseRun) (phase : Nat)
      (d : Nanos) (next : ActionJob), (s.operate env phase a operations).2 = .wait d next →
        next.size < operations.length := by
    intro a operations
    induction operations with
    | nil =>
      intro s phase d next h
      cases h
    | cons op rest ih =>
      intro s phase d next h
      rcases operate_cons env phase a s op rest with ⟨d', r, heq, -⟩ | heq
      · rw [heq] at h
        cases h
        exact Nat.lt_succ_self _
      · rw [heq] at h
        split at h
        · exact Nat.lt_succ_of_lt (ih _ _ _ _ h)
        · cases h
  intro now phase job s d next h
  cases job with
  | next a operations => exact hoperate a operations s phase d next h
  | send a op r rest =>
    simp only [phaseCrew, turn] at h
    split at h
    · exact hoperate a rest _ phase d next h
    · cases h

end PhaseRun

/-! ## Lanes as phases -/

/-- The end of a phase, once it has come. -/
def PhaseState.returned : PhaseState → UnitEnd
  | .ended e => e
  | _ => .returned []

namespace Interleaving

/-- A pool of jobs and phases beside each other at corresponding moments. The planned phases stand
at the places that `slots` gives; all other phases have ended. -/
structure Mirrors (env : Environment) (step : String) (planned : List PlannedPhase)
    (slots : List Nat) (pool : Pool PhaseRun ActionJob) (u : Interleaving) : Prop where
  world : u.world = pool.world.world
  made : ∀ x ∈ pool.jobs, x.2.Made env
  pending : pool.world.pending.length = planned.length
  lanes : ∀ i ∈ pool.lanes, ∃ (j : Nat) (q : PlannedPhase) (errors : ErrorList)
    (actions : List Action), slots[i]? = some j ∧ planned[i]? = some q ∧
      pool.world.pending[i]? = some errors ∧
      u.phases[j]? = some (.acting errors.errors actions q.commits) ∧
      actions.Perm ((pool.jobs.filter (·.1 = i)).map (·.2.action))
  returned : ∀ (j : Nat) (q : PhaseState), u.phases[j]? = some q →
    q.isEnded = true ∨ ∃ i ∈ pool.lanes, slots[i]? = some j
  errors : pool.world.ended.errors.Perm (united step (u.phases.map PhaseState.returned))

variable {env : Environment} {step : String} {planned : List PlannedPhase} {slots : List Nat}
  {pool pool' : Pool PhaseRun ActionJob} {u : Interleaving}

/-- Different lanes have different places. -/
theorem slot_ne (hslots : slots.Nodup) {i k j j' : Nat} (hi : slots[i]? = some j)
    (hk : slots[k]? = some j') (h : k ≠ i) : j' ≠ j := by
  rintro rfl
  obtain ⟨hi', hij⟩ := List.getElem?_eq_some_iff.mp hi
  obtain ⟨hk', hkj⟩ := List.getElem?_eq_some_iff.mp hk
  exact h ((hslots.getElem_inj_iff).mp (hkj.trans hij.symm))

/-- The jobs of a lane after a turn of one of them. -/
theorem filter_turn_self {τ : Type} (i : Nat) (next : Option τ) (rest : List (Nat × τ)) :
    ((next.map (i, ·)).toList ++ rest).filter (·.1 = i) =
      (next.map (i, ·)).toList ++ rest.filter (·.1 = i) := by
  cases next <;> simp

/-- The jobs of another lane. -/
theorem filter_turn_ne {τ : Type} {i k : Nat} (h : k ≠ i) (next : Option τ)
    (rest : List (Nat × τ)) :
    ((next.map (i, ·)).toList ++ rest).filter (·.1 = k) = rest.filter (·.1 = k) := by
  cases next <;> simp [Ne.symm h]

/-- The phase of a lane takes the steps of a turn of one of its jobs. -/
theorem Mirrors.turn (hslots : slots.Nodup) (h : Mirrors env step planned slots pool u) {i : Nat}
    {job : ActionJob} {rest : List (Nat × ActionJob)} (hi : i ∈ pool.lanes)
    (hjobs : pool.jobs.Perm ((i, job) :: rest)) :
    ∃ u', Reaches env env.performs u u' ∧ Mirrors env step planned slots { pool with
      world := (pool.world.turn env i job).1
      jobs := ((pool.world.turn env i job).2.next?.map (i, ·)).toList ++ rest } u' := by
  obtain ⟨w, phases, cs⟩ := u
  obtain ⟨j, q, errors, actions, hj, hq, herrors, hphase, hactions⟩ := h.lanes i hi
  obtain ⟨before, after, rfl, rfl⟩ := exists_split_of_getElem? hphase
  have hworld : w = pool.world.world := h.world
  subst hworld
  -- the job stands for one of the actions
  have hperm : actions.Perm (job.action :: (rest.filter (·.1 = i)).map (·.2.action)) := by
    refine hactions.trans ?_
    have := (hjobs.filter (·.1 = i)).map (·.2.action)
    simpa using this
  obtain ⟨l, r, rfl⟩ := List.append_of_mem (hperm.symm.subset List.mem_cons_self)
  have hothers : (l ++ r).Perm ((rest.filter (·.1 = i)).map (·.2.action)) :=
    (List.perm_middle.symm.trans hperm).cons_inv
  have hmade : job.Made env := h.made (i, job) (hjobs.symm.subset List.mem_cons_self)
  obtain ⟨new, hadv, hnext⟩ :=
    PhaseRun.turn_advances i q.commits pool.world errors.errors l r hmade
  obtain ⟨more, hreach⟩ := reaches_of_goes hadv.goes before after cs
  refine ⟨_, hreach, rfl, ?_, ?_, ?_, ?_, ?_⟩
  · intro x hx
    rcases List.mem_append.mp hx with hx | hx
    · obtain ⟨next, hn, rfl⟩ := Option.map_eq_some_iff.mp (Option.mem_toList.mp hx)
      exact hnext next hn
    · exact h.made x (hjobs.symm.subset (List.mem_cons_of_mem _ hx))
  · change (pool.world.turn env i job).1.pending.length = _
    rw [hadv.pending, List.length_modify]
    exact h.pending
  · intro k hk
    by_cases hki : k = i
    · subst hki
      refine ⟨before.length, q, ⟨errors.errors ++ new⟩, _, hj, hq, ?_, getElem?_middle _ _ _, ?_⟩
      · change (pool.world.turn env k job).1.pending[k]? = _
        rw [hadv.pending, List.getElem?_modify_eq, herrors]
        rfl
      · refine (List.perm_append_comm_assoc _ _ _).trans ?_
        rw [filter_turn_self, List.map_append]
        refine List.Perm.append (List.Perm.of_eq ?_) hothers
        cases (pool.world.turn env k job).2.next? <;> rfl
    · obtain ⟨j', q', errors', actions', hj', hq', herrors', hphase', hactions'⟩ := h.lanes k hk
      refine ⟨j', q', errors', actions', hj', hq', ?_, ?_, ?_⟩
      · change (pool.world.turn env i job).1.pending[k]? = _
        rw [hadv.pending, List.getElem?_modify_ne _ _ (Ne.symm hki)]
        exact herrors'
      · exact (getElem?_of_ne _ _ (slot_ne hslots hj hj' hki)).trans hphase'
      · refine hactions'.trans (List.Perm.map _ ?_)
        rw [filter_turn_ne hki]
        simpa [Ne.symm hki] using hjobs.filter (·.1 = k)
  · intro j' q' hq'
    by_cases hj' : j' = before.length
    · exact Or.inr ⟨i, hi, hj' ▸ hj⟩
    · rw [getElem?_of_ne (.acting errors.errors (l ++ job.action :: r) q.commits) _ hj'] at hq'
      exact h.returned j' q' hq'
  · change (pool.world.turn env i job).1.ended.errors.Perm _
    rw [hadv.ended]
    simpa [PhaseState.returned] using h.errors

/-- The phase of a lane that ends commits its groups. -/
theorem Mirrors.close (hslots : slots.Nodup) (h : Mirrors env step planned slots pool u) {i : Nat}
    (hi : i ∈ pool.lanes) (hnone : ∀ x ∈ pool.jobs, x.1 ≠ i) :
    ∃ u', Reaches env env.performs u u' ∧ Mirrors env step planned slots { pool with
      world := pool.world.close (planned.map (·.commits)) i
      lanes := pool.lanes.filter (· ≠ i) } u' := by
  obtain ⟨w, phases, cs⟩ := u
  obtain ⟨j, q, errors, actions, hj, hq, herrors, hphase, hactions⟩ := h.lanes i hi
  obtain ⟨before, after, rfl, rfl⟩ := exists_split_of_getElem? hphase
  have hworld : w = pool.world.world := h.world
  subst hworld
  -- no job is left, and so no action
  have hfilter : pool.jobs.filter (·.1 = i) = [] :=
    List.filter_eq_nil_iff.mpr fun x hx => by simpa using hnone x hx
  rw [hfilter] at hactions
  obtain rfl := hactions.eq_nil
  have hgoes : PhaseState.Goes env env.performs
      (pool.world.world, .acting errors.errors [] q.commits)
      ({ pool.world.world with instances := pool.world.world.instances.commit q.commits },
        .ended (.returned errors.errors)) :=
    PhaseState.Goes.step .settle (PhaseState.commit_goes _ _ q.commits)
  obtain ⟨more, hreach⟩ := reaches_of_goes hgoes before after cs
  refine ⟨_, hreach, ?_, h.made, h.pending, ?_, ?_, ?_⟩
  · have hcommits : (planned.map (·.commits))[i]?.getD [] = q.commits := by simp [hq]
    unfold PhaseRun.close
    rw [hcommits]
  · intro k hk
    obtain ⟨hk, hki⟩ := List.mem_filter.mp hk
    have hki' : k ≠ i := by simpa using hki
    obtain ⟨j', q', errors', actions', hj', hq', herrors', hphase', hactions'⟩ := h.lanes k hk
    exact ⟨j', q', errors', actions', hj', hq', herrors',
      (getElem?_of_ne _ _ (slot_ne hslots hj hj' hki')).trans hphase', hactions'⟩
  · intro j' q' hq'
    by_cases hj' : j' = before.length
    · rw [hj', getElem?_middle] at hq'
      cases hq'
      exact Or.inl rfl
    · rw [getElem?_of_ne (.acting errors.errors [] q.commits) _ hj'] at hq'
      rcases h.returned j' q' hq' with he | ⟨k, hk, hkj⟩
      · exact Or.inl he
      · refine Or.inr ⟨k, List.mem_filter.mpr ⟨hk, ?_⟩, hkj⟩
        have hki : k ≠ i := by
          rintro rfl
          exact hj' (Option.some.inj (hkj.symm.trans hj))
        simpa using hki
  · have hold := h.errors
    rw [List.map_append, List.map_cons] at hold ⊢
    simp only [PhaseRun.close, ErrorList.concat, herrors, Option.getD_some]
    exact (hold.append_right _).trans (flatMap_zipIdx_perm rfl)

/-- A turn of a job or the end of a lane is some steps of the phases. -/
theorem Mirrors.advance (hslots : slots.Nodup) (h : Mirrors env step planned slots pool u)
    (hs : Pool.Step (phaseCrew env planned) pool pool') :
    ∃ u', Reaches env env.performs u u' ∧ Mirrors env step planned slots pool' u' := by
  cases hs with
  | turn _ hi hjobs => exact h.turn hslots hi hjobs
  | close _ hi hnone => exact h.close hslots hi hnone

theorem Mirrors.reaches (hslots : slots.Nodup) (h : Mirrors env step planned slots pool u)
    (hs : Relation.ReflTransGen (Pool.Step (phaseCrew env planned)) pool pool') :
    ∃ u', Reaches env env.performs u u' ∧ Mirrors env step planned slots pool' u' := by
  induction hs with
  | refl => exact ⟨u, .refl, h⟩
  | tail _ hs ih =>
    obtain ⟨u', hr, hm⟩ := ih
    obtain ⟨u'', hr', hm'⟩ := hm.advance hslots hs
    exact ⟨u'', hr.trans hr', hm'⟩

/-! ## The beginning of a run -/

/-- Where planned phases stand among phases that have begun. -/
structure Placed (planned : List PlannedPhase) (slots : List Nat) (states : List PhaseState) :
    Prop where
  nodup : slots.Nodup
  length : slots.length = planned.length
  acting : ∀ (i j : Nat) (q : PlannedPhase), slots[i]? = some j → planned[i]? = some q →
    states[j]? = some (.acting [] q.actions q.commits)
  ended : ∀ (j : Nat) (q : PhaseState), states[j]? = some q → q.isEnded = true ∨ j ∈ slots

theorem Placed.cons_ended {states : List PhaseState} (h : Placed planned slots states)
    (e : UnitEnd) : Placed planned (slots.map (· + 1)) (.ended e :: states) where
  nodup := h.nodup.map (fun _ _ => Nat.succ.inj)
  length := by simpa using h.length
  acting := by
    intro i j q hj hq
    rw [List.getElem?_map] at hj
    obtain ⟨j, hj', rfl⟩ := Option.map_eq_some_iff.mp hj
    rw [List.getElem?_cons_succ]
    exact h.acting i j q hj' hq
  ended := by
    intro j q hq
    cases j with
    | zero =>
      cases hq
      exact Or.inl rfl
    | succ j => exact (h.ended j q hq).imp_right fun hj => List.mem_map_of_mem hj

theorem Placed.cons_acting {states : List PhaseState} (h : Placed planned slots states)
    (q : PlannedPhase) :
    Placed (q :: planned) (0 :: slots.map (· + 1))
      (.acting [] q.actions q.commits :: states) where
  nodup := by
    refine List.nodup_cons.mpr ⟨by simp, h.nodup.map (fun _ _ => Nat.succ.inj)⟩
  length := by simpa using h.length
  acting := by
    intro i j q' hj hq
    cases i with
    | zero =>
      cases hj
      cases hq
      rfl
    | succ i =>
      rw [List.getElem?_cons_succ, List.getElem?_map] at hj
      obtain ⟨j, hj', rfl⟩ := Option.map_eq_some_iff.mp hj
      exact h.acting i j q' hj' hq
  ended := by
    intro j q' hq
    cases j with
    | zero => exact Or.inr List.mem_cons_self
    | succ j =>
      refine (h.ended j q' hq).imp_right fun hj => ?_
      exact List.mem_cons_of_mem _ (List.mem_map_of_mem hj)

/-- Phases that begin one after another. -/
theorem beginPhases_reaches (env : Environment) (step : String) (w : World) (phases : List Phase)
    (k : Nat) :
    ∃ slots states, Placed (w.beginPhases env step (phases.zipIdx k)).planned slots states ∧
      ((w.beginPhases env step (phases.zipIdx k)).refusals.concat
        (w.beginPhases env step (phases.zipIdx k)).crashes).errors.Perm
          ((states.zipIdx k).flatMap fun (q, i) => q.returned.errors step i) ∧
      ∀ before cs, ∃ more, Reaches env env.performs ⟨w, before ++ phases.map .waiting, cs⟩
        ⟨(w.beginPhases env step (phases.zipIdx k)).world, before ++ states, cs ++ more⟩ := by
  induction phases generalizing w k with
  | nil =>
    refine ⟨[], [], ⟨List.nodup_nil, rfl, by simp, by simp⟩, .refl _, fun before cs => ⟨[], ?_⟩⟩
    simp only [List.map_nil, List.append_nil]
    exact .refl
  | cons p rest ih =>
    have hbegin := PhaseState.beginPhase_goes env w p
    -- the steps of the first phase, and those of the others after it
    have hjoin : ∀ {w₁ w₂ : World} {q : PhaseState} {states : List PhaseState},
        PhaseState.Goes env env.performs (w, .waiting p) (w₁, q) →
        (∀ before cs, ∃ more, Reaches env env.performs ⟨w₁, before ++ rest.map .waiting, cs⟩
          ⟨w₂, before ++ states, cs ++ more⟩) →
        ∀ before cs, ∃ more, Reaches env env.performs ⟨w, before ++ (p :: rest).map .waiting, cs⟩
          ⟨w₂, before ++ q :: states, cs ++ more⟩ := by
      intro w₁ w₂ q states hq hrest before cs
      obtain ⟨more, h₁⟩ := reaches_of_goes hq before (rest.map .waiting) cs
      obtain ⟨more', h₂⟩ := hrest (before ++ [q]) (cs ++ more)
      refine ⟨more ++ more', h₁.trans ?_⟩
      simpa using h₂
    rw [List.zipIdx_cons]
    unfold World.beginPhases
    generalize w.beginPhase env p = b at hbegin ⊢
    obtain ⟨start, w'⟩ := b
    obtain ⟨slots, states, hplaced, herrors, hreach⟩ := ih w' (k + 1)
    cases start with
    | refused e =>
      exact ⟨_, _, hplaced.cons_ended (.returned [e]), herrors.cons e, hjoin hbegin hreach⟩
    | idle => exact ⟨_, _, hplaced.cons_ended (.returned []), herrors, hjoin hbegin hreach⟩
    | crashed reason =>
      refine ⟨_, _, hplaced.cons_ended (.crashed reason), ?_, hjoin hbegin hreach⟩
      exact List.perm_middle.trans (herrors.cons _)
    | planned q => exact ⟨_, _, hplaced.cons_acting q, herrors, hjoin hbegin hreach⟩

/-- The jobs of a lane among those of all lanes. -/
theorem filter_start_jobs {lanes : List (Pacing × List ActionJob)} {i : Nat}
    {lane : Pacing × List ActionJob} (h : lanes[i]? = some lane) (s : PhaseRun) :
    ((Pool.start lanes s).jobs.filter (·.1 = i)).map (·.2) = lane.2 := by
  obtain ⟨before, after, rfl, rfl⟩ := exists_split_of_getElem? h
  have hnone : ∀ (k : Nat) (ls : List (Pacing × List ActionJob)),
      (before.length < k ∨ k + ls.length ≤ before.length) →
      ((ls.zipIdx k).flatMap fun (lane, i) => lane.2.map (i, ·)).filter
        (·.1 = before.length) = [] := by
    intro k ls hk
    refine List.filter_eq_nil_iff.mpr fun x hx => ?_
    obtain ⟨⟨lane, j⟩, hl, hx⟩ := List.mem_flatMap.mp hx
    obtain ⟨job, -, rfl⟩ := List.mem_map.mp hx
    have hle := List.le_snd_of_mem_zipIdx hl
    have hlt := List.snd_lt_add_of_mem_zipIdx hl
    simp only [decide_eq_true_eq]
    omega
  simp only [Pool.start, List.zipIdx_append, List.zipIdx_cons, List.flatMap_append,
    List.flatMap_cons, List.filter_append, List.map_append, Nat.zero_add]
  rw [hnone 0 before (by omega), hnone (before.length + 1) after (by omega)]
  simp [List.filter_map, Function.comp_def]

theorem permits_pacing {load : Load} {draws : Draws} {count : Nat} {pacing : Pacing}
    (h : load.pacing draws count = some pacing) : pacing.permits ≠ some 0 := by
  have hunlimited : (none : Option Nat) ≠ some 0 := (Option.some_ne_none 0).symm
  cases load with
  | timeLimited limit =>
    simp only [Load.pacing] at h
    split at h
    · cases h
      exact hunlimited
    · obtain ⟨gap, -, rfl⟩ := Option.map_eq_some_iff.mp h
      exact hunlimited
  | parallelismLimited limit =>
    cases h
    simp only [ne_eq, Option.some.injEq]
    omega
  | _ =>
    cases h
    exact hunlimited

theorem permits_beginPhase {w w' : World} {p : Phase} {q : PlannedPhase}
    (h : w.beginPhase env p = (.planned q, w')) : q.pacing.permits ≠ some 0 := by
  unfold World.beginPhase at h
  split at h
  · cases h
  · cases h
  · dsimp only at h
    split at h
    · rename_i pacing hp
      cases h
      exact permits_pacing hp
    · cases h

theorem permits_beginPhases (env : Environment) (step : String) (w : World)
    (phases : List (Phase × Nat)) :
    ∀ q ∈ (w.beginPhases env step phases).planned, q.pacing.permits ≠ some 0 := by
  induction phases generalizing w with
  | nil => simp [World.beginPhases]
  | cons x rest ih =>
    obtain ⟨p, index⟩ := x
    unfold World.beginPhases
    rcases h : w.beginPhase env p with ⟨e | _ | reason | q, w'⟩
    · exact ih w'
    · exact ih w'
    · exact ih w'
    · intro q' hq'
      rcases List.mem_cons.mp hq' with rfl | hq'
      · exact permits_beginPhase h
      · exact ih w' q' hq'

def lanesOf (planned : List PlannedPhase) : List (Pacing × List ActionJob) :=
  planned.map fun q => (q.pacing, q.actions.map fun a => ActionJob.next a a.operations)

theorem getElem?_lanesOf {i : Nat} {q : PlannedPhase} (h : planned[i]? = some q) :
    (lanesOf planned)[i]? =
      some (q.pacing, q.actions.map fun a => ActionJob.next a a.operations) := by
  unfold lanesOf
  rw [List.getElem?_map, h]
  rfl

/-- The pool of phases that have begun, before any of their actions takes a turn. -/
theorem mirrors_start {w : World} {states : List PhaseState} {errors : ErrorList}
    (hplaced : Placed planned slots states)
    (herrors : errors.errors.Perm (united step (states.map PhaseState.returned)))
    (commits : List (Nat × GroupKey)) :
    Mirrors env step planned slots
      (Pool.start (lanesOf planned)
        { world := w, pending := planned.map fun _ => {}, ended := errors })
      ⟨w, states, commits⟩ where
  world := rfl
  made := by
    intro x hx
    obtain ⟨⟨lane, i⟩, hl, hx⟩ := List.mem_flatMap.mp hx
    obtain ⟨job, hjob, rfl⟩ := List.mem_map.mp hx
    obtain ⟨q, -, rfl⟩ := List.mem_map.mp (List.fst_mem_of_mem_zipIdx hl)
    obtain ⟨a, -, rfl⟩ := List.mem_map.mp hjob
    trivial
  pending := by simp [Pool.start]
  lanes := by
    intro i hi
    have hi' : i < planned.length := by simpa [Pool.start, lanesOf] using hi
    have hq : planned[i]? = some planned[i] := List.getElem?_eq_getElem hi'
    obtain ⟨j, hj⟩ : ∃ j, slots[i]? = some j :=
      ⟨_, List.getElem?_eq_getElem (by rw [hplaced.length]; exact hi')⟩
    refine ⟨_, _, {}, _, hj, hq, by simp [Pool.start, hi'], hplaced.acting i _ _ hj hq, ?_⟩
    have hjobs := filter_start_jobs (getElem?_lanesOf hq)
      { world := w, pending := planned.map fun _ => {}, ended := errors }
    have hactions := congrArg (List.map ActionJob.action) hjobs
    rw [List.map_map] at hactions
    refine List.Perm.of_eq (Eq.trans ?_ hactions.symm)
    rw [List.map_map]
    exact (List.map_id _).symm
  returned := by
    intro j q hq
    refine (hplaced.ended j q hq).imp_right fun hj => ?_
    obtain ⟨i, hi⟩ := List.getElem?_of_mem hj
    refine ⟨i, ?_, hi⟩
    have hlt := (List.getElem?_eq_some_iff.mp hi).1
    simpa [Pool.start, lanesOf, hplaced.length] using hlt
  errors := herrors

/-- When no lane is left all phases have returned. -/
theorem Mirrors.ended (h : Mirrors env step planned slots pool u) (hlanes : pool.lanes = []) :
    u.Ended := by
  intro q hq
  obtain ⟨j, hj⟩ := List.getElem?_of_mem hq
  rcases h.returned j q hj with he | ⟨i, hi, -⟩
  · exact he
  · rw [hlanes] at hi
    cases hi

theorem returned_of_ended (h : u.Ended) :
    united step (u.phases.map PhaseState.returned) = u.errors step := by
  unfold Interleaving.errors
  congr 1
  refine List.map_congr_left fun q hq => ?_
  have he := h q hq
  cases q with
  | ended e => rfl
  | _ => cases he

/-- Phases on a timeline take the steps of an interleaving, and all of them come to an end. -/
theorem runPhases_reached (env : Environment) (step : String) (w : World) (now : Millis)
    (phases : List Phase) :
    ∃ t, Reaches env env.performs (start w phases) t ∧ t.Ended ∧
      t.world = (w.runPhases env step now phases).2.1 ∧
      (w.runPhases env step now phases).1.errors.Perm (t.errors step) := by
  obtain ⟨slots, states, hplaced, herrors, hbegin⟩ := beginPhases_reaches env step w phases 0
  obtain ⟨more, hbegin⟩ := hbegin [] []
  rw [← united_map] at herrors
  let b := w.beginPhases env step phases.zipIdx
  have hpermits : ∀ lane ∈ lanesOf b.planned, lane.1.permits ≠ some 0 := by
    intro lane hl
    obtain ⟨q, hq, rfl⟩ := List.mem_map.mp hl
    exact permits_beginPhases env step w phases.zipIdx q hq
  have hrun := Crew.run_reaches (PhaseRun.sized_phaseCrew env b.planned) now hpermits
    { world := b.world
      pending := b.planned.map fun _ => {}
      ended := b.refusals.concat b.crashes }
  obtain ⟨t, hr, hm⟩ := (mirrors_start hplaced herrors more).reaches hplaced.nodup hrun
  have hended := hm.ended rfl
  refine ⟨t, hbegin.trans hr, hended, hm.world, ?_⟩
  rw [← returned_of_ended hended]
  exact hm.errors

end Interleaving

end ReplicaLoad

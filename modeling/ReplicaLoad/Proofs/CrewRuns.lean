-- Runs of crews. A timeline decides when a job takes its next turn, and nothing
-- else. What a run does to its world is what some order of turns does to it,
-- with the end of every lane after the turns of its jobs (`Pool.Step`); and a
-- run with the steps that `workOf` gives it comes to the end of all lanes.
import ReplicaLoad.Proofs.TimelineMoves
import Mathlib.Algebra.GroupWithZero.Nat
import Mathlib.Logic.Relation

namespace ReplicaLoad

variable {ω τ : Type}

/-! ## Pools of jobs -/

/-- A world with the jobs of lanes that have not ended. -/
structure Pool (ω τ : Type) where
  world : ω
  /-- Jobs with their lanes. -/
  jobs : List (Nat × τ)
  /-- The lanes that have not ended. -/
  lanes : List Nat

def Turn.next? : Turn τ → Option τ
  | .done => none
  | .wait _ next => some next

/-- Any job can take the next turn. A lane ends when none of its jobs is left. -/
inductive Pool.Step (crew : Crew ω τ) : Pool ω τ → Pool ω τ → Prop
  | turn {pool : Pool ω τ} {i job rest} (now : Millis) (hi : i ∈ pool.lanes)
      (h : pool.jobs.Perm ((i, job) :: rest)) :
      Step crew pool { pool with
        world := (crew.turn now i job pool.world).1
        jobs := ((crew.turn now i job pool.world).2.next?.map (i, ·)).toList ++ rest }
  | close {pool : Pool ω τ} {i} (now : Millis) (hi : i ∈ pool.lanes)
      (h : ∀ x ∈ pool.jobs, x.1 ≠ i) :
      Step crew pool { pool with
        world := crew.close now i pool.world
        lanes := pool.lanes.filter (· ≠ i) }

def Pool.start (lanes : List (Pacing × List τ)) (world : ω) : Pool ω τ where
  world := world
  jobs := lanes.zipIdx.flatMap fun (lane, i) => lane.2.map (i, ·)
  lanes := List.range lanes.length

namespace Timeline

variable {crew : Crew ω τ} {t t' : Timeline ω τ}

/-! ## Steps as turns of a pool -/

/-- A pool holds what the tokens of a timeline stand for. -/
structure Pooled (t : Timeline ω τ) (pool : Pool ω τ) : Prop where
  world : pool.world = t.world
  jobs : pool.jobs.Perm (t.tokens.flatMap Token.jobs)
  lanes : ∀ i, i ∈ pool.lanes ↔ ∃ l, t.lanes[i]? = some l ∧ l.closed = false

theorem Pooled.of_tokens {pool : Pool ω τ} (h : Pooled t pool) (world : t'.world = t.world)
    (jobs : (t'.tokens.flatMap Token.jobs).Perm (t.tokens.flatMap Token.jobs))
    (lanes : ∀ i : Nat, (∃ l : Lane τ, t'.lanes[i]? = some l ∧ l.closed = false) ↔
      ∃ l : Lane τ, t.lanes[i]? = some l ∧ l.closed = false) : Pooled t' pool where
  world := h.world.trans world.symm
  jobs := h.jobs.trans jobs.symm
  lanes := fun i => (h.lanes i).trans (lanes i).symm

theorem exists_open_modify (lanes : List (Lane τ)) (i j : Nat) {f : Lane τ → Lane τ}
    (hf : ∀ l, (f l).closed = l.closed) :
    (∃ l, (lanes.modify i f)[j]? = some l ∧ l.closed = false) ↔
      ∃ l, lanes[j]? = some l ∧ l.closed = false := by
  rw [List.getElem?_modify]
  cases lanes[j]? with
  | none => simp
  | some l =>
    by_cases hij : i = j
    · simp [hij, hf]
    · simp [hij]

/-- A lane with a job has not ended. -/
theorem Pooled.mem_lanes {pool : Pool ω τ} (hp : Pooled t pool) (h : Orderly t) {i : Nat}
    {state : τ} {others : List (Token τ)} (hb : t.tokens.Perm (.job i state :: others)) :
    i ∈ pool.lanes := by
  have hi : i < t.lanes.length := h.lanes (.job i state) (hb.symm.subset (by simp))
  have htally := h.tallied i _ (List.getElem?_eq_getElem hi)
  refine (hp.lanes i).mpr ⟨_, List.getElem?_eq_getElem hi, ?_⟩
  cases hc : t.lanes[i].closed with
  | false => rfl
  | true => exact absurd (htally.closed hc) (Nat.ne_of_gt (htally.running_pos hb))

/-- None of the jobs of a lane is left when its starter ends. -/
theorem Orderly.no_jobs (h : Orderly t) {i : Nat} {l : Lane τ} {others : List (Token τ)}
    (hl : t.lanes[i]? = some l) (hb : t.tokens.Perm (.starter i [] :: others))
    (hr : l.running = 0) : ∀ x ∈ t.tokens.flatMap Token.jobs, x.1 ≠ i := by
  have htally := h.tallied i l hl
  have hstarter := htally.starter
  have hjob := htally.running
  rw [hb.countP_eq, List.countP_cons_of_pos (by simp [Token.isStarter]),
    htally.open_of_starter hb] at hstarter
  rw [hr, hb.countP_eq, List.countP_cons_of_neg (by simp [Token.isJob])] at hjob
  intro x hx
  obtain ⟨token, htoken, hx⟩ := List.mem_flatMap.mp hx
  rcases List.mem_cons.mp (hb.subset htoken) with rfl | ho
  · simp [Token.jobs] at hx
  · cases token with
    | starter j waiting =>
      obtain ⟨_, _, rfl⟩ := List.mem_map.mp hx
      rintro rfl
      have hzero : others.countP (Token.isStarter j) = 0 := by simpa using hstarter
      exact List.countP_eq_zero.mp hzero _ ho (by simp [Token.isStarter])
    | job j state =>
      rw [List.mem_singleton.mp hx]
      rintro rfl
      exact List.countP_eq_zero.mp hjob _ ho (by simp [Token.isJob])

/-- A move is a turn of a job, the end of a lane, or nothing for the pool. -/
theorem Move.pooled {pool : Pool ω τ} (h : Orderly t) (hm : Move crew t t') (hp : Pooled t pool) :
    ∃ pool', Relation.ReflTransGen (Pool.Step crew) pool pool' ∧ Pooled t' pool' := by
  cases hm with
  | wake tokens lanes world =>
    exact ⟨pool, .refl, hp.of_tokens world (tokens.flatMap_right _) (by simp [lanes])⟩
  | pause before after _ lanes world =>
    refine ⟨pool, .refl, hp.of_tokens world ?_ (by simp [lanes])⟩
    exact (after.flatMap_right _).trans (before.flatMap_right Token.jobs).symm
  | park _ _ _ tokens lanes world =>
    refine ⟨pool, .refl, hp.of_tokens world (tokens.flatMap_right _) fun j => ?_⟩
    rw [lanes]
    exact exists_open_modify _ _ _ (by simp)
  | @start i l p rest others _ before after _ lanes world =>
    refine ⟨pool, .refl, hp.of_tokens world ?_ fun j => ?_⟩
    · refine (after.flatMap_right _).trans (List.Perm.trans ?_ (before.flatMap_right _).symm)
      simp only [List.flatMap_cons, Token.jobs, List.map_cons]
      exact List.perm_middle
    · rw [lanes]
      exact exists_open_modify _ _ _ (by simp [Lane.start])
  | @finish i l state others lane before after done lanes world =>
    have hjobs : pool.jobs.Perm ((i, state) :: others.flatMap Token.jobs) :=
      hp.jobs.trans (before.flatMap_right _)
    refine ⟨_, .single (.turn t.now (hp.mem_lanes h before) hjobs), ?_, ?_, fun j => ?_⟩
    · rw [world, hp.world]
    · rw [hp.world, done]
      exact (after.flatMap_right _).symm
    · rw [lanes]
      exact (hp.lanes j).trans (exists_open_modify _ _ _ (by simp [Lane.finish])).symm
  | @wait i state d next others before after waits lanes world =>
    have hjobs : pool.jobs.Perm ((i, state) :: others.flatMap Token.jobs) :=
      hp.jobs.trans (before.flatMap_right _)
    refine ⟨_, .single (.turn t.now (hp.mem_lanes h before) hjobs), ?_, ?_, fun j => ?_⟩
    · rw [world, hp.world]
    · rw [hp.world, waits]
      exact (after.flatMap_right Token.jobs).symm
    · rw [lanes]
      exact hp.lanes j
  | @close i l others lane before after idle lanes world =>
    have hopen := (h.tallied i l lane).open_of_starter before
    have hi : i ∈ pool.lanes := (hp.lanes i).mpr ⟨l, lane, hopen⟩
    have hnone : ∀ x ∈ pool.jobs, x.1 ≠ i :=
      fun x hx => h.no_jobs lane before idle x (hp.jobs.subset hx)
    refine ⟨_, .single (.close t.now hi hnone), ?_, ?_, fun j => ?_⟩
    · rw [world, hp.world]
    · exact hp.jobs.trans ((before.flatMap_right _).trans (after.flatMap_right _).symm)
    · rw [lanes, List.mem_filter, hp.lanes j, List.getElem?_modify]
      by_cases hij : i = j
      · subst hij
        simp [lane]
      · simp [hij, Ne.symm hij]

/-! ## Runs come to an end -/

end Timeline

/-- The steps that a job takes before it is started, up to its first turn. -/
def Pending.work (size : τ → Nat) (p : Pending τ) : Nat :=
  (if p.pause = 0 then 0 else 2) + 2 * size p.job + 4

def Token.work (size : τ → Nat) : Token τ → Nat
  | .starter _ waiting => (waiting.map (Pending.work size)).sum + 1
  | .job _ state => 2 * size state + 2

/-- The starter of a lane is not waiting for a job to end. -/
def Lane.isAwake (l : Lane τ) : Bool := l.parked.isNone

/-- A job has fewer waits before it after each of them. -/
def Crew.Sized (crew : Crew ω τ) (size : τ → Nat) : Prop :=
  ∀ (now : Millis) (i : Nat) (state : τ) (world : ω) (d : Nanos) (next : τ),
    (crew.turn now i state world).2 = .wait d next → size next < size state

namespace Timeline

def work (size : τ → Nat) (t : Timeline ω τ) : Nat :=
  (t.tokens.map (Token.work size)).sum + t.asleep.length + t.lanes.countP Lane.isAwake

theorem countP_modify {α : Type} {p : α → Bool} {as : List α} {i : Nat} {a : α}
    (h : as[i]? = some a) (f : α → α) :
    (as.modify i f).countP p + (if p a then 1 else 0) =
      as.countP p + (if p (f a) then 1 else 0) := by
  induction as generalizing i with
  | nil => simp at h
  | cons b rest ih =>
    cases i with
    | zero =>
      rw [List.getElem?_cons_zero, Option.some.injEq] at h
      subst h
      rw [List.modify_zero_cons, List.countP_cons, List.countP_cons]
      omega
    | succ i =>
      rw [List.getElem?_cons_succ] at h
      have := ih h
      rw [List.modify_succ_cons, List.countP_cons, List.countP_cons]
      omega

theorem sum_work_of_perm {size : τ → Nat} {tokens tokens' : List (Token τ)}
    (h : tokens.Perm tokens') :
    (tokens.map (Token.work size)).sum = (tokens'.map (Token.work size)).sum :=
  (h.map _).sum_nat

/-- A wait takes a step, and changes what is to do by the sizes before and after it. -/
theorem work_wait {t t' : Timeline ω τ} {size : τ → Nat} {i : Nat} {state next : τ} {others : List (Token τ)}
    (before : t.tokens.Perm (.job i state :: others))
    (after : t'.tokens.Perm (.job i next :: others)) (lanes : t'.lanes = t.lanes)
    (asleep : t'.asleep.length ≤ t.asleep.length + 1) :
    t'.work size + 2 * size state ≤ t.work size + 2 * size next + 1 := by
  unfold work
  rw [sum_work_of_perm before, sum_work_of_perm after, lanes]
  simp only [List.map_cons, List.sum_cons, Token.work]
  omega

/-- Every move leaves less to do. -/
theorem Move.work_lt {size : τ → Nat} (hsize : crew.Sized size) (hm : Move crew t t') :
    t'.work size < t.work size := by
  cases hm with
  | wake tokens lanes _ asleep =>
    unfold work
    rw [sum_work_of_perm tokens, lanes]
    omega
  | @pause i p rest others before after pause lanes _ asleep =>
    unfold work
    rw [sum_work_of_perm before, sum_work_of_perm after, lanes, asleep]
    simp only [List.map_cons, List.sum_cons, Token.work, Pending.work, if_neg pause, if_true]
    omega
  | @park i l waiting lane awake _ tokens lanes _ asleep =>
    -- no token is lost, but one lane less is awake
    have hawake : l.isAwake = true := by simp [Lane.isAwake, awake]
    have hc := countP_modify (p := Lane.isAwake) lane ({ · with parked := some waiting })
    rw [if_pos hawake, if_neg (by simp [Lane.isAwake])] at hc
    unfold work
    rw [sum_work_of_perm tokens, lanes, asleep]
    omega
  | @start i l p rest others lane before after _ lanes _ asleep =>
    have hsame : l.start.isAwake = l.isAwake := rfl
    have hc := countP_modify (p := Lane.isAwake) lane Lane.start
    rw [hsame] at hc
    unfold work
    rw [sum_work_of_perm before, sum_work_of_perm after, lanes]
    simp only [List.map_cons, List.sum_cons, Token.work, Pending.work]
    omega
  | @finish i l state others lane before after _ lanes _ asleep =>
    have hc := countP_modify (p := Lane.isAwake) lane Lane.finish
    rw [if_pos (by rfl : l.finish.isAwake = true)] at hc
    unfold work
    rw [sum_work_of_perm before, sum_work_of_perm after, lanes, asleep]
    simp only [List.map_cons, List.sum_cons, Token.work]
    omega
  | @wait i state d next others before after waits lanes _ asleep =>
    -- the job falls asleep, which is made up for by the size that it loses
    have hs := hsize _ _ _ _ _ _ waits
    have hw : t'.work size + 2 * size state ≤ t.work size + 2 * size next + 1 :=
      work_wait before after lanes asleep
    omega
  | @close i l others lane before after _ lanes _ asleep =>
    have hc := countP_modify (p := Lane.isAwake) lane ({ · with closed := true })
    have hsame : ({ l with closed := true } : Lane τ).isAwake = l.isAwake := rfl
    rw [hsame] at hc
    unfold work
    rw [sum_work_of_perm before, sum_work_of_perm after, lanes, asleep]
    simp only [List.map_cons, List.sum_cons, Token.work, List.map_nil, List.sum_nil]
    omega

/-- Steps of which each leaves less to do lead to a moment without a next one, by turns of the
pool. -/
theorem steps_pooled {rank : Timeline ω τ → Nat} {Holds : Timeline ω τ → Prop}
    (hstep : ∀ {t t' : Timeline ω τ}, Orderly t → Holds t → t.step crew = some t' →
      Holds t' ∧ rank t' < rank t)
    {fuel : Nat} (hfuel : rank t ≤ fuel) (h : Orderly t) (hholds : Holds t) {pool : Pool ω τ}
    (hp : Pooled t pool) :
    ∃ pool', Relation.ReflTransGen (Pool.Step crew) pool pool' ∧
      Pooled (t.steps crew fuel) pool' ∧ Orderly (t.steps crew fuel) ∧
      (t.steps crew fuel).step crew = none := by
  induction fuel generalizing t pool with
  | zero =>
    -- a next step would leave less than nothing
    refine ⟨pool, .refl, hp, h, ?_⟩
    cases hs : t.step crew with
    | none => exact hs
    | some t' =>
      have := (hstep h hholds hs).2
      omega
  | succ fuel ih =>
    unfold steps
    cases hs : t.step crew with
    | none => exact ⟨pool, .refl, hp, h, hs⟩
    | some t' =>
      have hm := step_move h hs
      obtain ⟨pool₁, hr, hp₁⟩ := hm.pooled h hp
      obtain ⟨hholds', hlt⟩ := hstep h hholds hs
      obtain ⟨pool₂, hr', hrest⟩ := ih (by omega) (hm.orderly h) hholds' hp₁
      exact ⟨pool₂, hr.trans hr', hrest⟩

theorem countP_isJob_parkedTokens (lanes : List (Lane τ)) (i : Nat) :
    (parkedTokens lanes).countP (Token.isJob i) = 0 := by
  refine List.countP_eq_zero.mpr fun token htoken => ?_
  obtain ⟨⟨l, j⟩, -, hl⟩ := List.mem_flatMap.mp htoken
  cases token with
  | starter => simp [Token.isJob]
  | job => simp [Lane.parkedToken] at hl

/-- When there is no next step, all lanes have ended. -/
theorem Orderly.ended (h : Orderly t) (hs : t.step crew = none) {pool : Pool ω τ}
    (hp : Pooled t pool) : pool = ⟨t.world, [], []⟩ := by
  have hready : t.ready = [] := by
    unfold step at hs
    split at hs
    · cases hs
    · cases hs
    · rename_i hr
      exact hr
  have hasleep : t.asleep = [] := by
    unfold step at hs
    rw [hready] at hs
    simpa [nextWake] using hs
  have htokens : t.tokens = parkedTokens t.lanes := by simp [tokens, hready, hasleep]
  -- no job is left, so that no starter waits for one
  have hparked : ∀ l ∈ t.lanes, l.parked = none := by
    intro l hl
    obtain ⟨i, hi⟩ := List.getElem?_of_mem hl
    have htally := h.tallied i l hi
    have hzero : t.tokens.countP (Token.isJob i) = 0 := by
      rw [htokens]
      exact countP_isJob_parkedTokens t.lanes i
    rw [htally.running] at hzero
    cases hw : l.parked with
    | none => rfl
    | some waiting =>
      have := htally.parked (by rw [hw]; rfl)
      omega
  have hnone : t.tokens = [] := by
    rw [htokens]
    refine List.flatMap_eq_nil_iff.mpr fun x hx => ?_
    have hl := hparked x.1 (by simpa using List.fst_mem_of_mem_zipIdx hx)
    simp [Lane.parkedToken, hl]
  have hjobs : pool.jobs = [] := by
    have := hp.jobs
    rw [hnone] at this
    exact this.eq_nil
  have hlanes : pool.lanes = [] := by
    refine List.eq_nil_iff_forall_not_mem.mpr fun i hi => ?_
    obtain ⟨l, hl, hopen⟩ := (hp.lanes i).mp hi
    have hone := (h.tallied i l hl).starter
    rw [hnone, hopen] at hone
    simp at hone
  have hworld := hp.world
  cases pool
  simp_all

/-! ## The beginning of a run -/

theorem tokens_start (now : Millis) (lanes : List (Pacing × List τ)) (world : ω) :
    (start now lanes world).tokens =
      lanes.zipIdx.map fun ((p, jobs), i) => .starter i (p.schedule jobs) := by
  have hp : parkedTokens (start now lanes world).lanes = [] := by
    refine List.flatMap_eq_nil_iff.mpr fun x hx => ?_
    obtain ⟨lane, -, hl⟩ := List.mem_map.mp (List.fst_mem_of_mem_zipIdx hx)
    change Lane.parkedToken x.2 x.1 = []
    rw [← hl]
    rfl
  rw [tokens, hp]
  simp [start]

theorem countP_zipIdx_snd {α : Type} (as : List α) {i : Nat} (h : i < as.length) :
    as.zipIdx.countP (fun x => decide (x.2 = i)) = 1 := by
  have hc : as.zipIdx.countP (fun x => decide (x.2 = i)) =
      (as.zipIdx.map Prod.snd).count i := by
    rw [List.count, List.countP_map]
    rfl
  rw [hc, List.zipIdx_map_snd]
  exact List.count_eq_one_of_mem List.nodup_range' (by simpa using h)

theorem orderly_start (now : Millis) {lanes : List (Pacing × List τ)}
    (hpermits : ∀ lane ∈ lanes, lane.1.permits ≠ some 0) (world : ω) :
    Orderly (start now lanes world) := by
  refine ⟨fun token htoken => ?_, fun i l hl => ?_⟩
  · rw [tokens_start] at htoken
    obtain ⟨⟨lane, i⟩, hx, rfl⟩ := List.mem_map.mp htoken
    simpa [start, Token.lane] using List.snd_lt_of_mem_zipIdx hx
  · obtain ⟨lane, hlane, rfl⟩ : ∃ lane, lanes[i]? = some lane ∧
        { permits := lane.1.permits } = l := by
      simpa [start] using hl
    obtain ⟨hi, hget⟩ := List.getElem?_eq_some_iff.mp hlane
    constructor
    · rw [tokens_start, List.countP_map]
      exact countP_zipIdx_snd lanes hi
    · rw [tokens_start, List.countP_map]
      exact List.countP_eq_zero.mpr (by simp [Token.isJob])
    · simp
    · simp
    · intro k hk
      have hne := hpermits lane (hget ▸ List.getElem_mem hi)
      rw [show lane.1.permits = some k from hk] at hne
      refine Nat.pos_of_ne_zero fun h0 => hne ?_
      rw [show k = 0 by simpa using h0]

theorem map_job_schedule (p : Pacing) (jobs : List τ) : (p.schedule jobs).map (·.job) = jobs := by
  unfold Pacing.schedule
  rw [List.map_map]
  exact List.zipIdx_map_fst 0 jobs

theorem pooled_start (now : Millis) (lanes : List (Pacing × List τ)) (world : ω) :
    Pooled (start now lanes world) (Pool.start lanes world) where
  world := rfl
  jobs := by
    rw [tokens_start, List.flatMap_map]
    refine List.Perm.of_eq (List.flatMap_congr fun x _ => ?_)
    change x.1.2.map (x.2, ·) = (x.1.1.schedule x.1.2).map fun p => (x.2, p.job)
    conv_lhs => rw [← map_job_schedule x.1.1 x.1.2]
    rw [List.map_map]
    rfl
  lanes := by
    intro i
    have hr : i ∈ (Pool.start lanes world).lanes ↔ i < lanes.length := List.mem_range
    rw [hr]
    constructor
    · intro hi
      exact ⟨{ permits := lanes[i].1.permits }, by simp [start, hi], rfl⟩
    · rintro ⟨l, hl, -⟩
      simpa [start] using (List.getElem?_eq_some_iff.mp hl).1

theorem work_schedule_le (size : τ → Nat) (p : Pacing) (jobs : List τ) :
    ((p.schedule jobs).map (Pending.work size)).sum + 4 ≤
      jobs.foldr (fun job n => 2 * size job + 8 + n) 4 := by
  unfold Pacing.schedule
  -- the bound does not depend on the position of a job
  suffices h : ∀ k : Nat, (((jobs.zipIdx k).map fun x =>
      (⟨p.pause x.2, p.offset x.2, x.1⟩ : Pending τ)).map (Pending.work size)).sum + 4 ≤
        jobs.foldr (fun job n => 2 * size job + 8 + n) 4 from h 0
  induction jobs with
  | nil => simp
  | cons job rest ih =>
    intro k
    have hrest := ih (k + 1)
    have hp : Pending.work size ⟨p.pause k, p.offset k, job⟩ ≤ 2 * size job + 6 := by
      simp only [Pending.work]
      split <;> omega
    rw [List.zipIdx_cons, List.map_cons, List.map_cons, List.sum_cons, List.foldr_cons]
    change Pending.work size ⟨p.pause k, p.offset k, job⟩ + List.sum _ + 4 ≤ _
    omega

/-- A run has steps enough. -/
theorem work_start_le (size : τ → Nat) (now : Millis) (lanes : List (Pacing × List τ))
    (world : ω) : (start now lanes world).work size ≤ workOf size lanes := by
  have hawake : (start now lanes world).lanes.countP Lane.isAwake ≤ lanes.length := by
    refine Nat.le_trans List.countP_le_length ?_
    simp [start]
  have htokens : ((start now lanes world).tokens.map (Token.work size)).sum + lanes.length ≤
      workOf size lanes := by
    rw [tokens_start, List.map_map]
    suffices h : ∀ k : Nat, ((lanes.zipIdx k).map
        (Token.work size ∘ fun ((p, jobs), i) => .starter i (p.schedule jobs))).sum +
          lanes.length ≤ workOf size lanes from h 0
    clear hawake
    induction lanes with
    | nil => simp [workOf]
    | cons lane rest ih =>
      intro k
      have hrest := ih (k + 1)
      have hlane := work_schedule_le size lane.1 lane.2
      have hwork : workOf size (lane :: rest) =
          lane.2.foldr (fun job n => 2 * size job + 8 + n) 4 + workOf size rest := rfl
      rw [List.zipIdx_cons, List.map_cons, List.sum_cons, List.length_cons, hwork,
        Function.comp_apply, Token.work]
      omega
  unfold work
  have hasleep : (start now lanes world).asleep.length = 0 := rfl
  omega

end Timeline

/-- A run takes the jobs of all lanes to their end, turn by turn, if its steps are as many as a rank
that each of them lowers. -/
theorem Crew.run_reaches_of_rank {crew : Crew ω τ} {size : τ → Nat} {now : Millis}
    {lanes : List (Pacing × List τ)} {world : ω} (rank : Timeline ω τ → Nat)
    (Holds : Timeline ω τ → Prop)
    (hstep : ∀ {t t' : Timeline ω τ}, t.Orderly → Holds t → t.step crew = some t' →
      Holds t' ∧ rank t' < rank t)
    (hholds : Holds (.start now lanes world))
    (hrank : rank (.start now lanes world) ≤ workOf size lanes)
    (hpermits : ∀ lane ∈ lanes, lane.1.permits ≠ some 0) :
    Relation.ReflTransGen (Pool.Step crew) (Pool.start lanes world)
      ⟨(crew.run size now lanes world).world, [], []⟩ := by
  obtain ⟨pool, hr, hp, ho, hs⟩ := Timeline.steps_pooled hstep hrank
    (Timeline.orderly_start now hpermits world) hholds (Timeline.pooled_start now lanes world)
  rw [ho.ended hs hp] at hr
  exact hr

/-- A run of jobs with fewer and fewer waits before them takes all of them to their end. -/
theorem Crew.run_reaches {crew : Crew ω τ} {size : τ → Nat} (hsize : crew.Sized size) (now : Millis)
    {lanes : List (Pacing × List τ)} (hpermits : ∀ lane ∈ lanes, lane.1.permits ≠ some 0)
    (world : ω) :
    Relation.ReflTransGen (Pool.Step crew) (Pool.start lanes world)
      ⟨(crew.run size now lanes world).world, [], []⟩ :=
  Crew.run_reaches_of_rank (Timeline.work size) (fun _ => True)
    (fun h _ hs => ⟨trivial, (Timeline.step_move h hs).work_lt hsize⟩) trivial
    (Timeline.work_start_le size now lanes world) hpermits

end ReplicaLoad

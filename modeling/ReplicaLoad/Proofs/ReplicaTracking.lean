-- Counts and replicas. Phases one after another keep the counts of the store in
-- step with the cluster: a replica is there exactly when its index lies below
-- the count that its group has reached. So no phase ever creates what is there
-- already, and none patches or deletes what is not. That ends with a phase
-- whose tuning set cannot start the actions: its counts are committed, and its
-- replicas are not there.
import ReplicaLoad.Proofs.DisjointPhases
import ReplicaLoad.Proofs.PhaseCounts
import ReplicaLoad.Proofs.SharedLimits

namespace ReplicaLoad

/-- A phase whose tuning set and templates can be used, for every replica. -/
structure Environment.Sound (env : Environment) (p : Phase) : Prop extends env.Regular p where
  paced : ∃ load, env.tuningSets.select p.tuningSet = .ok load
  identified : ∃ bundle, env.identifyAll p.bundle = .ok bundle
  rendered : ∀ o ∈ p.bundle, ∀ i : UInt32, ∃ made, env.object o.path (o.values i.toNat) = .ok made

/-- The replicas of some groups in the cluster are those that the store counts, and it counts no
others. -/
structure Tracks (own : GroupKey → Prop) (w : World) : Prop where
  failingNames : w.cluster.failingNames = []
  tracked : ∀ key, ¬ own key → w.instances.get? key = none
  bounded : ∀ key, w.instances.count key < UInt32.size
  held : ∀ key, own key → ∀ i : UInt32,
    (w.cluster.view (replicaKey key i.toNat)).isSome = true ↔ i.toNat < w.instances.count key

variable {env : Environment} {own : GroupKey → Prop} {w : World} {p : Phase}

/-! ## Operations that succeed -/

/-- An operation has done what it was planned for. -/
structure Effect.Succeeds (f : Effect) (op : ObjectOperation) : Prop where
  error : f.error = none
  goesOn : f.goesOn = true
  entry : ∀ e ∈ f.entry.toList, e.succeeded = true
  left : f.left.isSome = true ↔ op.operation ≠ .delete

/-- An operation succeeds when its replica is there, or when it creates one that is not. -/
theorem Environment.effect_succeeds {c : Cluster} {a : Action} {op : ObjectOperation} {r : Request}
    (hcrash : ∀ name, env.client.crash? name = none) (hf : c.failingNames = [])
    (hr : env.request op.object a.index op.operation = .ok r) (ha : env.Addresses a op)
    (hheld : (c.view (env.address a op)).isSome = true ↔ op.operation ≠ .create) :
    (env.effect c a op).Succeeds op := by
  have hop := Environment.request_operation hr
  have hrefusal : c.refusal r a.ns (op.object.objectName a.index) = none := by
    unfold Cluster.refusal
    rw [hf, ha r hr]
    exact Request.refusal_eq_none.mpr (by rw [hheld, hop])
  unfold Environment.effect
  simp only [hr, hcrash, hrefusal]
  refine ⟨rfl, rfl, by simp, ?_⟩
  have hwritten := r.isSome_written a.ns (op.object.objectName a.index)
  rwa [hop] at hwritten

variable (hcrash : ∀ name, env.client.crash? name = none)

/-- Every operation of a phase has a request. -/
theorem Environment.Sound.request (hs : env.Sound p) {a : Action} {op : ObjectOperation}
    (ha : a ∈ (env.course p w.instances).actions) (hop : op ∈ a.operations) :
    ∃ r, env.request op.object a.index op.operation = .ok r := by
  obtain ⟨g, hid, hmem, -, hp⟩ := course_operation ha hop
  unfold Environment.request
  cases ho : op.operation with
  | delete =>
    obtain ⟨found, hfound, -⟩ := Environment.identify_ok hid
    exact ⟨_, by rw [hfound]⟩
  | _ =>
    -- an index that is rendered lies below the target
    have hlt := (lt_target_of_plannedFor hp).mpr (by simp [ho])
    obtain ⟨i, hi⟩ := exists_uint32 (Nat.lt_trans hlt p.replicas.toNat_lt)
    obtain ⟨made, hmade⟩ := hs.rendered _ hmem i
    rw [hi] at hmade
    exact ⟨_, by rw [hmade]⟩

include hcrash in
/-- A phase that finds the replicas that the store counts does nothing that fails. -/
theorem Environment.Sound.succeeds (hs : env.Sound p) (ht : Tracks own w)
    (hown : ∀ key ∈ env.keysOf p, own key) {a : Action} {op : ObjectOperation}
    (ha : a ∈ (env.course p w.instances).actions) (hop : op ∈ a.operations) :
    (env.effect w.cluster a op).Succeeds op := by
  obtain ⟨r, hr⟩ := hs.request ha hop
  obtain ⟨g, hid, -, hkey, hp⟩ := course_operation ha hop
  refine Environment.effect_succeeds hcrash ht.failingNames hr
    (hs.toRegular.addresses w.instances a ha op hop) ?_
  -- the index has 32 bits, whether it is counted already or wanted now
  obtain ⟨i, hi⟩ : ∃ i : UInt32, i.toNat = a.index := by
    apply exists_uint32
    by_cases hne : op.operation = .create
    · refine Nat.lt_trans ((lt_target_of_plannedFor hp).mpr ?_) p.replicas.toNat_lt
      simp [hne]
    · exact Nat.lt_trans ((lt_current_of_plannedFor hp).mpr hne) (ht.bounded _)
  unfold Environment.address
  rw [group_of_identify hid, ← hi, ht.held _ (hown _ hkey) i, hi]
  exact lt_current_of_plannedFor hp

/-! ## One phase -/

namespace Interleaving

theorem mem_allEffects {x : ObjectKey × Effect} (hx : x ∈ allEffects env w [p]) :
    ∃ a ∈ (env.course p w.instances).actions, ∃ op ∈ a.operations,
      x = (env.address a op, env.effect w.cluster a op) := by
  obtain ⟨a, ha, hx⟩ := List.mem_flatMap.mp hx
  rw [allActions, List.flatMap_singleton] at ha
  obtain ⟨op, hop, rfl⟩ := Environment.mem_effects hx
  exact ⟨a, (Course.started_sublist _).subset ha, op, hop, rfl⟩

/-- A replica that a phase works on is of one of its groups, and something was planned for it. -/
theorem planned_of_mem_allEffects {key : GroupKey} {i : Nat}
    (h : replicaKey key i ∈ (allEffects env w [p]).map (·.1)) :
    key ∈ env.keysOf p ∧
      ∃ o, plannedFor (w.instances.count key) p.replicas.toNat i = some o := by
  obtain ⟨x, hx, hxk⟩ := List.mem_map.mp h
  obtain ⟨a, ha, op, hop, rfl⟩ := mem_allEffects hx
  obtain ⟨g, hid, -, hkey, hp⟩ := course_operation ha hop
  rw [Environment.address, group_of_identify hid] at hxk
  obtain ⟨rfl, rfl⟩ := replicaKey_inj hxk
  exact ⟨hkey, _, hp⟩

theorem outcome_of_goes (hc : env.client.returned = id) (hr : env.Regular p) {w' : World}
    {e : UnitEnd} (h : PhaseState.Goes env env.performs (w, .waiting p) (w', .ended e))
    (step : String) : Outcome env step w [p] w' (e.errors step 0) := by
  obtain ⟨more, hreach⟩ := reaches_of_goes h [] [] []
  have ho := outcome_of_reaches hc (List.pairwise_singleton _ p) (by simpa using hr) hreach
    (by simp [Ended, PhaseState.isEnded]) step
  have herrors : Interleaving.errors step ⟨w', [.ended e], more⟩ = e.errors step 0 :=
    List.append_nil _
  rw [← herrors]
  exact ho

end Interleaving

theorem Environment.refusals_of_resolves {load : Load}
    {bundle : List (ObjectTemplate × ReplicaGroup)}
    (hl : env.tuningSets.select p.tuningSet = .ok load)
    (hb : env.identifyAll p.bundle = .ok bundle) : env.refusals p = [] := by
  unfold Environment.refusals
  rcases Environment.ready_of_resolves hl hb with ⟨-, h⟩ | h
  · rw [h]
  · rw [h]

/-- What a phase leaves for a replica of one of its groups. -/
theorem Interleaving.Outcome.isSome_view {step : String} {w' : World} {errors : List RunError}
    (ho : Outcome env step w [p] w' errors) (hstarts : env.Starts w.instances p)
    (hs : ∀ a ∈ (env.course p w.instances).actions, ∀ op ∈ a.operations,
      (env.effect w.cluster a op).Succeeds op) {key : GroupKey} (hk : key ∈ env.keysOf p) {i : Nat}
    (hheld : (w.cluster.view (replicaKey key i)).isSome = true ↔ i < w.instances.count key) :
    (w'.cluster.view (replicaKey key i)).isSome = true ↔ i < p.replicas.toNat := by
  cases hp : plannedFor (w.instances.count key) p.replicas.toNat i with
  | some o =>
    obtain ⟨a, ha, op, hop, rfl, haddr⟩ := exists_course_operation hk hp
    have hx : (env.address a op, env.effect w.cluster a op) ∈ allEffects env w [p] := by
      rw [allEffects, allActions, List.flatMap_singleton, Course.started_of_crash_eq_none hstarts]
      refine List.mem_flatMap.mpr ⟨a, ha, ?_⟩
      rw [Environment.effects_of_goesOn fun op' hop' => (hs a ha op' hop').goesOn]
      exact List.mem_map_of_mem hop
    rw [← haddr, ho.touched _ hx, (hs a ha op hop).left, lt_target_of_plannedFor hp]
  | none =>
    have hx : replicaKey key i ∉ (allEffects env w [p]).map (·.1) := by
      intro hm
      obtain ⟨-, o, ho⟩ := planned_of_mem_allEffects hm
      rw [hp] at ho
      cases ho
    rw [ho.untouched _ hx, hheld, lt_iff_of_plannedFor hp]

/-- A phase leaves the replicas of other groups alone. -/
theorem Interleaving.Outcome.view_of_not_own {step : String} {w' : World} {errors : List RunError}
    (ho : Outcome env step w [p] w' errors) {key : GroupKey} (hk : key ∉ env.keysOf p) (i : Nat) :
    w'.cluster.view (replicaKey key i) = w.cluster.view (replicaKey key i) := by
  apply ho.untouched
  intro hm
  exact hk (planned_of_mem_allEffects hm).1

/-- No call between two worlds has failed. -/
def NoneFailed (w w' : World) : Prop :=
  ∃ entries, w'.cluster.journal = w.cluster.journal ++ entries ∧ ∀ e ∈ entries, e.succeeded = true

theorem NoneFailed.refl (w : World) : NoneFailed w w := ⟨[], by simp, by simp⟩

theorem NoneFailed.trans {w w' w'' : World} (h : NoneFailed w w') (h' : NoneFailed w' w'') :
    NoneFailed w w'' := by
  obtain ⟨entries, hj, he⟩ := h
  obtain ⟨entries', hj', he'⟩ := h'
  refine ⟨entries ++ entries', by rw [hj', hj, List.append_assoc], fun e hm => ?_⟩
  rcases List.mem_append.mp hm with hm | hm
  · exact he e hm
  · exact he' e hm

theorem Tracks.count_of_own (ht : Tracks own w) {key : GroupKey} {counts : Instances}
    (h : w.instances.get? key = some counts) :
    own key ∧ w.instances.count key = counts.current := by
  constructor
  · by_contra hk
    rw [ht.tracked key hk] at h
    cases h
  · simp [InstanceStore.count, h]

section Phase

variable {w' : World} {errors : List RunError} (hc : env.client.returned = id)
  (h : PhaseState.Goes env env.performs (w, .waiting p) (w', .ended (.returned errors)))

include hc hcrash h

/-- A phase keeps the counts and the replicas in step. -/
theorem Tracks.phase (ht : Tracks own w) (hs : env.Sound p)
    (hown : ∀ key ∈ env.keysOf p, own key) : Tracks own w' := by
  obtain ⟨load, hl⟩ := hs.paced
  obtain ⟨bundle, hb⟩ := hs.identified
  have ho := Interleaving.outcome_of_goes hc hs.toRegular h ""
  have hstarts := h.any.starts_iff.mpr ⟨errors, rfl⟩
  have hget := h.any.get?_ended hl hb
  rw [← Environment.keysOf_of_resolves hl hb] at hget
  have hcount := h.any.count_ended
  constructor
  · rw [ho.failingNames, ht.failingNames]
  · intro key hk
    rw [hget, if_neg fun hkp => hk (hown key hkp)]
    exact ht.tracked key hk
  · intro key
    rw [hcount]
    split
    · exact p.replicas.toNat_lt
    · exact ht.bounded key
  · intro key hk i
    rw [hcount]
    by_cases hkp : key ∈ env.keysOf p
    · rw [if_pos hkp]
      exact ho.isSome_view hstarts (fun a ha op hop => hs.succeeds hcrash ht hown ha hop) hkp
        (ht.held key hk i)
    · rw [if_neg hkp, ho.view_of_not_own hkp]
      exact ht.held key hk i

/-- In a phase that finds the replicas that the store counts no call fails. -/
theorem Tracks.faultless (ht : Tracks own w) (hs : env.Sound p)
    (hown : ∀ key ∈ env.keysOf p, own key) : errors = [] ∧ NoneFailed w w' := by
  obtain ⟨load, hl⟩ := hs.paced
  obtain ⟨bundle, hb⟩ := hs.identified
  have ho := Interleaving.outcome_of_goes hc hs.toRegular h ""
  have hcrashes : env.crashes "" w.instances [p] = [] := by
    have hnone : (env.course p w.instances).crash = none := h.any.starts_iff.mpr ⟨errors, rfl⟩
    simp [Environment.crashes, hnone]
  have hsucc : ∀ x ∈ Interleaving.allEffects env w [p],
      x.2.error = none ∧ ∀ e ∈ x.2.entry.toList, e.succeeded = true := by
    intro x hx
    obtain ⟨a, ha, op, hop, rfl⟩ := Interleaving.mem_allEffects hx
    have he := hs.succeeds hcrash ht hown ha hop
    exact ⟨he.error, he.entry⟩
  constructor
  · have herrors := ho.errors
    rw [List.flatMap_singleton, Environment.refusals_of_resolves hl hb, hcrashes, List.nil_append,
      List.append_nil] at herrors
    refine (herrors.trans (List.Perm.of_eq ?_)).eq_nil
    refine List.flatMap_eq_nil_iff.mpr fun x hx => ?_
    rw [(hsucc x hx).1]
    rfl
  · obtain ⟨entries, hj, hp⟩ := ho.journal
    refine ⟨entries, hj, fun e he => ?_⟩
    obtain ⟨x, hx, hex⟩ := List.mem_flatMap.mp (hp.subset he)
    exact (hsucc x hx).2 e hex

end Phase

/-! ## Phases that cannot be started -/

/-- Without its actions a phase still commits what it has entered. -/
theorem World.beginPhase_of_not_starts (h : ¬ env.Starts w.instances p) :
    w.beginPhase env p = (.crashed Load.divisionCrash,
      { w with instances := (env.course p w.instances).final }) := by
  obtain ⟨r, hr⟩ := Environment.exists_ready_of_not_starts h
  unfold Environment.Starts at h
  rw [Environment.course_ready hr] at h ⊢
  unfold World.beginPhase
  rw [hr]
  dsimp only
  split
  · rename_i hpacing
    exact absurd (Load.crash?_of_some hpacing) h
  · rfl

/-- Nothing is called for a phase whose actions cannot be started, and the step has one error of
it. -/
theorem World.runPhases_of_not_starts (h : ¬ env.Starts w.instances p) (step : String)
    (now : Millis) : w.runPhases env step now [p] =
      (⟨[.crashedUnit step 0 Load.divisionCrash]⟩,
        { w with instances := (env.course p w.instances).final }, now) := by
  unfold World.runPhases
  simp only [List.zipIdx_cons, List.zipIdx_nil, World.beginPhases,
    World.beginPhase_of_not_starts h]
  rfl

/-! ## Phases one after another -/

/-- Runs of phases one after another, each of them alone in a step, with the errors that the step has
of it, in any order, and the world after it. -/
inductive Successive (env : Environment) (step : String) :
    World → List Phase → List (List RunError × World) → Prop
  | nil {w : World} : Successive env step w [] []
  | cons {w w' : World} {p : Phase} {phases e errors outcomes}
      (first : PhaseState.Goes env env.performs (w, .waiting p) (w', .ended e))
      (same : errors.Perm (e.errors step 0)) (rest : Successive env step w' phases outcomes) :
      Successive env step w (p :: phases) ((errors, w') :: outcomes)

/-- Run phases one after another from a time on, each of them on its timeline. -/
def World.runEach (env : Environment) (step : String) (now : Millis) (w : World) :
    List Phase → List (List RunError × World)
  | [] => []
  | p :: rest =>
    let (errors, w, now) := w.runPhases env step now [p]
    (errors.errors, w) :: runEach env step now w rest

theorem runEach_successive (env : Environment) (step : String) (now : Millis) (w : World)
    (phases : List Phase) : Successive env step w phases (w.runEach env step now phases) := by
  induction phases generalizing w now with
  | nil => exact .nil
  | cons p rest ih =>
    obtain ⟨e, hg, hp⟩ := runPhases_goes env step w now p
    exact .cons hg hp (ih _ _)

/-- A phase has had no errors, no call has failed since a first world, and the replicas are those
that the store counts. -/
structure InStep (w₀ : World) (errors : List RunError) (w : World) : Prop where
  errors : errors = []
  calls : NoneFailed w₀ w
  replicas : ∀ key counts, w.instances.get? key = some counts → ∀ i : UInt32,
    (w.cluster.objects.get? (replicaKey key i.toNat)).isSome = true ↔ i.toNat < counts.current

/-- Whether the tuning sets can start what phases plan one after another, each of them in the store
that the phases before it leave. By `Environment.starts_iff` this is a matter of the numbers of the
actions. -/
def Environment.AllStart (env : Environment) (s : InstanceStore) : List Phase → Prop
  | [] => True
  | p :: rest => env.Starts s p ∧ env.AllStart (env.course p s).final rest

theorem Environment.allStart_congr {s s' : InstanceStore} (h : s'.Agree (fun _ => True) s)
    (phases : List Phase) : env.AllStart s' phases ↔ env.AllStart s phases := by
  induction phases generalizing s s' with
  | nil => exact Iff.rfl
  | cons p rest ih =>
    have hsame : (env.course p s').Same (fun _ => True) (env.course p s) :=
      Environment.course_same (fun _ _ => trivial) h
    unfold AllStart Starts
    rw [hsame.crash, ih hsame.final]

variable {step : String} {phases : List Phase} {outcomes : List (List RunError × World)}

include hcrash in
/-- Phases keep the counts and the replicas in step as long as their actions can be started. -/
theorem Successive.inStep_iff (h : Successive env step w phases outcomes)
    (hc : env.client.returned = id) (hs : ∀ p ∈ phases, env.Sound p) (ht : Tracks own w)
    (hown : ∀ p ∈ phases, ∀ key ∈ env.keysOf p, own key) :
    (∀ x ∈ outcomes, InStep w x.1 x.2) ↔ env.AllStart w.instances phases := by
  -- the worlds before have been left behind, but not the calls that were made in them
  suffices hall : ∀ w₀, NoneFailed w₀ w →
      ((∀ x ∈ outcomes, InStep w₀ x.1 x.2) ↔ env.AllStart w.instances phases) from
    hall w (.refl w)
  induction h with
  | nil => exact fun _ _ => iff_of_true (by simp) trivial
  | @cons w w' p phases e errors outcomes first same rest ih =>
    intro w₀ hbefore
    rw [List.forall_mem_cons, Environment.AllStart]
    cases e with
    | crashed reason =>
      refine iff_of_false (fun h => ?_) fun h => ?_
      · obtain rfl : errors = [] := h.1.errors
        cases same.nil_eq
      · obtain ⟨errors, he⟩ := first.any.starts_iff.mp h.1
        cases he
    | returned errors =>
      have hsp := hs p List.mem_cons_self
      have hop := hown p List.mem_cons_self
      have ht' := ht.phase hcrash hc first hsp hop
      obtain ⟨rfl, hphase⟩ := ht.faultless hcrash hc first hsp hop
      have hcalls := hbefore.trans hphase
      have hfirst : InStep w₀ errors w' := by
        refine ⟨same.eq_nil, hcalls, fun key counts hk i => ?_⟩
        obtain ⟨hok, hcount⟩ := ht'.count_of_own hk
        rw [← Cluster.isSome_view, ht'.held key hok i, hcount]
      rw [and_iff_right hfirst, and_iff_right (first.any.starts_iff.mpr ⟨_, rfl⟩),
        ← Environment.allStart_congr first.any.onCourse.2]
      exact ih (fun p hp => hs p (List.mem_cons_of_mem _ hp)) ht'
        (fun p hp => hown p (List.mem_cons_of_mem _ hp)) w₀ hcalls

/-- Phases one after another, from a store that counts nothing and a cluster that holds none of
their replicas. If and only if their actions can be started, no call fails, no phase has an error,
and after each of them the cluster holds the replicas that the store counts. -/
theorem replicas_tracked (hc : env.client.returned = id)
    (hcrash : ∀ name, env.client.crash? name = none) (hs : ∀ p ∈ phases, env.Sound p)
    (hw : w.instances = Table.empty) (hf : w.cluster.failingNames = [])
    (hnone : ∀ p ∈ phases, ∀ key ∈ env.keysOf p, ∀ i : UInt32,
      w.cluster.objects.get? (replicaKey key i.toNat) = none) (step : String) :
    (∀ outcomes, Successive env step w phases outcomes →
      ((∀ x ∈ outcomes, InStep w x.1 x.2) ↔ env.AllStart w.instances phases)) ∧
    ∀ now, (∀ x ∈ w.runEach env step now phases, InStep w x.1 x.2) ↔
      env.AllStart w.instances phases := by
  have ht : Tracks (fun key => ∃ p ∈ phases, key ∈ env.keysOf p) w := by
    have hcount : ∀ key, w.instances.count key = 0 := by
      intro key
      rw [InstanceStore.count, hw]
      rfl
    refine ⟨hf, fun key _ => by rw [hw]; rfl, fun key => by rw [hcount]; decide, ?_⟩
    rintro key ⟨p, hp, hk⟩ i
    rw [hcount, Cluster.isSome_view, hnone p hp key hk i]
    simp
  have hall : ∀ outcomes, Successive env step w phases outcomes →
      ((∀ x ∈ outcomes, InStep w x.1 x.2) ↔ env.AllStart w.instances phases) :=
    fun outcomes h => h.inStep_iff hcrash hc hs ht fun p hp key hk => ⟨p, hp, hk⟩
  exact ⟨hall, fun now => hall _ (runEach_successive env step now w phases)⟩

theorem sound_samplePhase (basename : String) (replicas : UInt32) :
    sampleEnvironment.Sound (samplePhase basename replicas) where
  toRegular := regular_samplePhase basename replicas
  paced := ⟨.parallelismLimited 1, select_samplePhase basename replicas⟩
  identified := ⟨_, identifyAll_samplePhase basename replicas⟩
  rendered := by
    intro o _ i
    obtain ⟨found, hf, -⟩ := bareObject_sampleEnvironment o.path
    exact ⟨found, by rw [object_sampleEnvironment, hf]⟩

/-- A phase of the sample, and one that takes a replica of it away again. -/
theorem replicas_tracked_samplePhase :
    let phases := [samplePhase "a" 2, samplePhase "a" 1]
    let outcomes := ({} : World).runEach sampleEnvironment "step" 0 phases
    sampleEnvironment.client.returned = id ∧
    (∀ name, sampleEnvironment.client.crash? name = none) ∧
    (∀ p ∈ phases, sampleEnvironment.Sound p) ∧
    ({} : World).instances = Table.empty ∧ ({} : World).cluster.failingNames = [] ∧
    (∀ p ∈ phases, ∀ key ∈ sampleEnvironment.keysOf p,
      ∀ i : UInt32, ({} : World).cluster.objects.get? (replicaKey key i.toNat) = none) ∧
    ((∀ x ∈ outcomes, InStep {} x.1 x.2) ↔
      sampleEnvironment.AllStart ({} : World).instances phases) ∧
    sampleEnvironment.AllStart ({} : World).instances phases ∧
    outcomes.map (fun x => [0, 1].map fun i =>
      (x.2.cluster.objects.get? (replicaKey ("", ⟨"a", "A", ""⟩) i)).isSome) =
        [[true, true], [true, false]] := by
  intro phases outcomes
  have hs : ∀ p ∈ phases, sampleEnvironment.Sound p := by
    simp [phases, sound_samplePhase]
  have hnone : ∀ p ∈ phases, ∀ key ∈ sampleEnvironment.keysOf p,
      ∀ i : UInt32, ({} : World).cluster.objects.get? (replicaKey key i.toNat) = none :=
    fun _ _ _ _ _ => rfl
  refine ⟨rfl, fun _ => rfl, hs, rfl, rfl, hnone, ?_, ?_, ?_⟩
  · exact (replicas_tracked rfl (fun _ => rfl) hs rfl rfl hnone "step").2 0
  · exact ⟨starts_samplePhase _ "a" 2, starts_samplePhase _ "a" 1, trivial⟩
  · decide +kernel

theorem Environment.identifyAll_congr {env env' : Environment}
    (h : env'.templates = env.templates) (bundle : List ObjectTemplate) :
    env'.identifyAll bundle = env.identifyAll bundle := by
  induction bundle with
  | nil => rfl
  | cons o rest ih => simp only [identifyAll, identify, bareObject, h, ih]

/-- Of the environment, the templates alone decide about the templates of a phase. -/
theorem Environment.Sound.of_templates {env' : Environment} {p' : Phase} (hs : env.Sound p)
    (h : env'.templates = env.templates) (hbundle : p'.bundle = p.bundle)
    (hpaced : ∃ load, env'.tuningSets.select p'.tuningSet = .ok load) : env'.Sound p' := by
  have hobject : env'.object = env.object := by
    unfold Environment.object
    rw [h]
  have hidentify : env'.identify = env.identify := by
    unfold Environment.identify Environment.bareObject
    rw [h]
  have hall := Environment.identifyAll_congr h p.bundle
  exact {
    distinct := by
      rw [hbundle, hall]
      exact hs.distinct
    renders := by
      rw [hbundle, hobject, hidentify]
      exact hs.renders
    paced := hpaced
    identified := by
      rw [hbundle, hall]
      exact hs.identified
    rendered := by
      rw [hbundle, hobject]
      exact hs.rendered }

/-- The environment of the sample, where all actions of a phase have to start within a
millisecond. -/
def hurriedEnvironment : Environment :=
  { sampleEnvironment with
    tuningSets := .ofList [{ name := "at once", timeLimitMs := some 1 }] }

/-- A phase of two namespaces, with half as many replicas in each as 32 bits can count. -/
def hugePhase : Phase :=
  { samplePhase "a" 2147483648 with range := some ⟨1, 2, none⟩, tuningSet := "at once" }

theorem select_hugePhase :
    hurriedEnvironment.tuningSets.select hugePhase.tuningSet = .ok (.timeLimited 1) := rfl

theorem templates_hurriedEnvironment :
    hurriedEnvironment.templates = sampleEnvironment.templates := rfl

theorem identifyAll_hugePhase : hurriedEnvironment.identifyAll hugePhase.bundle =
    .ok [(sampleTemplate "a", ⟨"a", "A", ""⟩)] := by
  rw [Environment.identifyAll_congr templates_hurriedEnvironment]
  exact identifyAll_samplePhase "a" 2147483648

theorem sound_hugePhase : hurriedEnvironment.Sound hugePhase :=
  (sound_samplePhase "a" 2147483648).of_templates templates_hurriedEnvironment rfl
    ⟨.timeLimited 1, select_hugePhase⟩

theorem length_hugePhase : (hurriedEnvironment.course hugePhase Table.empty).actions.length =
    (2 + 1 - 1) * hugePhase.replicas.toNat := by
  have hrange : hugePhase.range = some ⟨1, 2, none⟩ := rfl
  rw [Environment.course_of_resolves select_hugePhase identifyAll_hugePhase, hrange]
  dsimp only
  rw [length_plan_range_of_fresh Table.empty hurriedEnvironment.scope ⟨1, 2, none⟩
    (List.cons_ne_nil _ _) fun _ _ => rfl]
  rfl

/-- The actions of the phase are so many that 32 bits count none. -/
theorem not_starts_hugePhase : ¬ hurriedEnvironment.Starts Table.empty hugePhase := by
  have hlength := length_hugePhase
  rw [Environment.starts_iff]
  intro h
  rcases Environment.ready_of_resolves select_hugePhase identifyAll_hugePhase with ⟨hn, -⟩ | hr
  · cases hn
  · have hnone := h _ 1 hr rfl (by rw [hlength]; decide)
    rw [hnone] at hlength
    exact absurd hlength (by decide)

/-- The phase is one that could keep the counts and the replicas in step. It fails, and then the
store counts replicas of which none is there. -/
theorem replicas_missing_hugePhase :
    ∃ w, ({} : World).runEach hurriedEnvironment "step" 0 [hugePhase] =
        [([.crashedUnit "step" 0 Load.divisionCrash], w)] ∧
      hurriedEnvironment.client.returned = id ∧
      (∀ name, hurriedEnvironment.client.crash? name = none) ∧
      hurriedEnvironment.Sound hugePhase ∧
      w.instances.count ("run-1", ⟨"a", "A", ""⟩) = 2147483648 ∧
      w.cluster.journal = [] ∧
      w.cluster.objects.get? (replicaKey ("run-1", ⟨"a", "A", ""⟩) 0) = none ∧
      ¬ InStep {} [.crashedUnit "step" 0 Load.divisionCrash] w := by
  have hrun := World.runPhases_of_not_starts not_starts_hugePhase (w := {}) "step" 0
  obtain ⟨e, hgoes, -⟩ := runPhases_goes hurriedEnvironment "step" {} 0 hugePhase
  have hcount := hgoes.any.count_ended ("run-1", ⟨"a", "A", ""⟩)
  have hkey : ("run-1", ⟨"a", "A", ""⟩) ∈ hurriedEnvironment.keysOf hugePhase := by
    rw [Environment.keysOf_of_resolves select_hugePhase identifyAll_hugePhase]
    decide
  rw [hrun, if_pos hkey] at hcount
  let w : World := { instances := (hurriedEnvironment.course hugePhase Table.empty).final }
  refine ⟨w, ?_, rfl, fun _ => rfl, sound_hugePhase, hcount, rfl, rfl, fun h => nomatch h.errors⟩
  rw [World.runEach, hrun]
  rfl

end ReplicaLoad

-- The counts of a phase. What the store holds while a phase acts and when it
-- has returned, whatever its operations did: the groups of the phase have what
-- it wants, and no other group has changed.
import ReplicaLoad.Proofs.PhaseCourse
import ReplicaLoad.Proofs.PhaseLanes

namespace ReplicaLoad

variable {env : Environment}

/-! ## A phase alone -/

/-- An interleaving of one phase is that phase on its own. -/
theorem Interleaving.goes_of_reaches {may : Outcomes} {w : World} {p : Phase} {t : Interleaving}
    (h : Reaches env may (start w [p]) t) :
    ∃ q, t.phases = [q] ∧ PhaseState.Goes env may (w, .waiting p) (t.world, q) := by
  induction h with
  | refl => exact ⟨_, rfl, .refl⟩
  | tail _ hs ih =>
    obtain ⟨q, hq, hg⟩ := ih
    obtain @⟨w₁, w₂, before, q₁, q₂, after, cs, hstep⟩ := hs
    -- there is no room beside the phase
    obtain ⟨rfl, rfl, rfl⟩ : before = [] ∧ q₁ = q ∧ after = [] := by
      rcases List.append_eq_singleton_iff.mp hq with ⟨hb, hr⟩ | ⟨-, hr⟩
      · simp_all
      · simp at hr
    exact ⟨q₂, rfl, hg.tail hstep⟩

/-- A phase alone keeps to its course. -/
theorem PhaseState.Goes.onCourse {w w' : World} {p : Phase} {q : PhaseState}
    (h : PhaseState.Goes env .any (w, .waiting p) (w', q)) :
    q.OnCourse env (fun _ => True) (env.course p w.instances) w'.instances := by
  have hgoes : ∀ x y : World × PhaseState, PhaseState.Goes env .any x y →
      x.2.OnCourse env (fun _ => True) (env.course p w.instances) x.1.instances →
      y.2.OnCourse env (fun _ => True) (env.course p w.instances) y.1.instances := by
    intro x y hxy hx
    induction hxy with
    | refl => exact hx
    | tail _ hs ih => exact hs.onCourse ih
  exact hgoes _ _ h ⟨rfl, rfl, fun _ _ => rfl, rfl⟩

/-- A phase ends with a crash exactly when its tuning set cannot start its actions. -/
theorem PhaseState.Goes.starts_iff {w w' : World} {p : Phase} {e : UnitEnd}
    (h : PhaseState.Goes env .any (w, .waiting p) (w', .ended e)) :
    env.Starts w.instances p ↔ ∃ errors, e = .returned errors := by
  unfold Environment.Starts
  rw [← h.onCourse.1]
  cases e with
  | returned errors => exact iff_of_true rfl ⟨errors, rfl⟩
  | crashed reason => exact iff_of_false nofun nofun

section Resolves

variable {p : Phase} {load : Load} {bundle : List (ObjectTemplate × ReplicaGroup)}
  (hl : env.tuningSets.select p.tuningSet = .ok load) (hb : env.identifyAll p.bundle = .ok bundle)

include hl hb

/-- A phase that can be resolved begins, unless its range is empty. -/
theorem Environment.ready_of_resolves :
    (namespaceList env.scope p.range = [] ∧ env.ready p = .ok none) ∨
    env.ready p = .ok (some ⟨load, bundle, namespaceList env.scope p.range, p.replicas.toNat⟩) := by
  unfold Environment.ready
  cases namespaceList env.scope p.range with
  | nil => exact Or.inl ⟨rfl, rfl⟩
  | cons ns rest => simp [hl, hb]

/-- A phase that can be resolved plans in the namespaces of its range. -/
theorem Environment.course_of_resolves (s : InstanceStore) :
    env.course p s =
      ⟨(s.plan bundle p.replicas.toNat (namespaceList env.scope p.range)).1,
        (s.plan bundle p.replicas.toNat (namespaceList env.scope p.range)).2.1,
        (s.plan bundle p.replicas.toNat (namespaceList env.scope p.range)).2.2,
        load.crash?
          (s.plan bundle p.replicas.toNat (namespaceList env.scope p.range)).1.length⟩ := by
  rcases Environment.ready_of_resolves hl hb with ⟨hn, h⟩ | h
  · rw [Environment.course_of_not_ready (by simp [h]), hn]
    have hnone : load.crash? 0 = none := (load.crash?_eq_none_iff 0).mpr fun _ _ _ => rfl
    exact congrArg (Course.mk [] [] s) hnone.symm
  · exact Environment.course_ready h s

theorem Environment.keysOf_of_resolves :
    env.keysOf p = groupKeys (namespaceList env.scope p.range) bundle := by
  rcases Environment.ready_of_resolves hl hb with ⟨hn, h⟩ | h
  · unfold Environment.keysOf
    rw [h, hn]
    rfl
  · exact Environment.keysOf_ready h

end Resolves

theorem starts_samplePhase (s : InstanceStore) (basename : String) (replicas : UInt32) :
    sampleEnvironment.Starts s (samplePhase basename replicas) := by
  unfold Environment.Starts
  rw [Environment.course_ready (ready_samplePhase basename replicas)]
  rfl

namespace InstanceStore

/-- The template that is kept for a group: the one that the store has, or the first one of the
bundle. -/
def templateOf (s : InstanceStore) (bundle : List (ObjectTemplate × ReplicaGroup))
    (key : GroupKey) : ObjectTemplate :=
  ((s.get? key).map (·.object)).getD (firstOf bundle key.2)

theorem wanted_eq (s : InstanceStore) (target : Nat)
    (bundle : List (ObjectTemplate × ReplicaGroup)) (key : GroupKey) :
    s.wanted target bundle key = ⟨target, s.count key, s.templateOf bundle key⟩ := by
  unfold wanted aim count templateOf
  cases s.get? key <;> rfl

end InstanceStore

/-- When a phase has ended its groups have the counts that it wanted. -/
theorem PhaseState.Goes.get?_ended {w w' : World} {p : Phase} {load : Load}
    {bundle : List (ObjectTemplate × ReplicaGroup)} {e : UnitEnd}
    (hl : env.tuningSets.select p.tuningSet = .ok load) (hb : env.identifyAll p.bundle = .ok bundle)
    (h : PhaseState.Goes env .any (w, .waiting p) (w', .ended e)) (key : GroupKey) :
    w'.instances.get? key =
      if key ∈ groupKeys (namespaceList env.scope p.range) bundle then
        some ⟨p.replicas.toNat, p.replicas.toNat, w.instances.templateOf bundle key⟩
      else w.instances.get? key := by
  have hc := h.onCourse
  rw [Environment.course_of_resolves hl hb w.instances] at hc
  rw [hc.2 key trivial, Course.final, InstanceStore.commit_plan_get?, InstanceStore.wanted_eq]

/-- When a phase has ended its groups have reached its target, whether it could begin or not. -/
theorem PhaseState.Goes.count_ended {w w' : World} {p : Phase} {e : UnitEnd}
    (h : PhaseState.Goes env .any (w, .waiting p) (w', .ended e)) (key : GroupKey) :
    w'.instances.count key =
      if key ∈ env.keysOf p then p.replicas.toNat else w.instances.count key := by
  have hc : w'.instances.get? key = (env.course p w.instances).final.get? key :=
    h.onCourse.2 key trivial
  rw [InstanceStore.count_congr hc]
  by_cases hready : ∃ r, env.ready p = .ok (some r)
  · obtain ⟨r, hr⟩ := hready
    rw [Environment.course_ready hr, Environment.keysOf_ready hr, InstanceStore.count, Course.final,
      InstanceStore.commit_plan_get?, Environment.ready_target hr]
    split
    · rfl
    · rfl
  · rw [Environment.course_of_not_ready fun r hr => hready ⟨r, hr⟩, if_neg]
    · rfl
    · exact fun hk => hready (Environment.exists_ready_of_mem_keysOf hk)

/-- A timeline is one of the orders that the actions of a phase can take. -/
theorem runPhases_goes (env : Environment) (step : String) (w : World) (now : Millis) (p : Phase) :
    ∃ e, PhaseState.Goes env env.performs (w, .waiting p)
        ((w.runPhases env step now [p]).2.1, .ended e) ∧
      (w.runPhases env step now [p]).1.errors.Perm (e.errors step 0) := by
  obtain ⟨t, hr, he, hw, herr⟩ := Interleaving.runPhases_reached env step w now [p]
  obtain ⟨q, hq, hg⟩ := Interleaving.goes_of_reaches hr
  have hqe := he q (by rw [hq]; exact List.mem_singleton_self q)
  rw [Interleaving.errors, hq] at herr
  cases q with
  | ended e => exact ⟨e, hw ▸ hg, herr.trans (.of_eq (List.append_nil _))⟩
  | _ => cases hqe

/-- While a phase acts its groups have the counts that it wants beside those that were reached
before; when it has ended, even by a crash, the wanted ones have been reached. No other group
changes. -/
theorem phase_counts {w : World} {p : Phase} {load : Load}
    {bundle : List (ObjectTemplate × ReplicaGroup)}
    (hl : env.tuningSets.select p.tuningSet = .ok load) (hb : env.identifyAll p.bundle = .ok bundle)
    (step : String) (now : Millis) :
    (∀ w' errors actions commits,
      PhaseState.Goes env .any (w, .waiting p) (w', .acting errors actions commits) →
      ∀ key, w'.instances.get? key =
        if key ∈ groupKeys (namespaceList env.scope p.range) bundle then
          some ⟨p.replicas.toNat, w.instances.count key, w.instances.templateOf bundle key⟩
        else w.instances.get? key) ∧
    (∀ w' e, PhaseState.Goes env .any (w, .waiting p) (w', .ended e) →
      ∀ key, w'.instances.get? key =
        if key ∈ groupKeys (namespaceList env.scope p.range) bundle then
          some ⟨p.replicas.toNat, p.replicas.toNat, w.instances.templateOf bundle key⟩
        else w.instances.get? key) ∧
    ∀ key, (w.runPhases env step now [p]).2.1.instances.get? key =
      if key ∈ groupKeys (namespaceList env.scope p.range) bundle then
        some ⟨p.replicas.toNat, p.replicas.toNat, w.instances.templateOf bundle key⟩
      else w.instances.get? key := by
  refine ⟨?_, fun w' e h => h.get?_ended hl hb, ?_⟩
  · intro w' errors actions commits h key
    have hc := h.onCourse
    rw [Environment.course_of_resolves hl hb w.instances] at hc
    rw [hc.2.2 key trivial, InstanceStore.plan_get?, InstanceStore.wanted_eq]
  · -- the timeline brings the phase to its end
    obtain ⟨e, hg, -⟩ := runPhases_goes env step w now p
    exact hg.any.get?_ended hl hb

/-- A phase of the sample in an empty store. -/
theorem phase_counts_samplePhase :
    sampleEnvironment.tuningSets.select (samplePhase "a" 2).tuningSet =
      .ok (.parallelismLimited 1) ∧
    sampleEnvironment.identifyAll (samplePhase "a" 2).bundle =
      .ok [(sampleTemplate "a", ⟨"a", "A", ""⟩)] ∧
    (({} : World).runPhases sampleEnvironment "step" 0 [samplePhase "a" 2]).2.1.instances.get?
      ("", ⟨"a", "A", ""⟩) = some ⟨2, 2, sampleTemplate "a"⟩ := by
  have hl := select_samplePhase "a" 2
  have hb := identifyAll_samplePhase "a" 2
  refine ⟨hl, hb, ((phase_counts hl hb "step" 0).2.2 _).trans ?_⟩
  rw [if_pos (by simp [groupKeys, samplePhase, namespaceList])]
  rfl

end ReplicaLoad

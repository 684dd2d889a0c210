-- Quiescence. What the store holds when phases beside each other have all
-- returned, whatever groups they share and whatever their actions did. A group
-- that some phase has entered and not yet committed can hold anything; but the
-- commit that comes last writes a count that is wanted and reached alike.
import ReplicaLoad.Proofs.InOrder

namespace ReplicaLoad

/-! ## What a phase owes -/

/-- The groups that a phase has still to enter. -/
def Enrolment.ahead (e : Enrolment) : List GroupKey :=
  e.left.map (fun x => (e.ns, x.2)) ++ groupKeys e.later e.bundle

namespace PhaseState

/-- The groups that a phase has still to commit. -/
def due (env : Environment) : PhaseState → List GroupKey
  | .waiting p => env.keysOf p
  | .reading e => e.entered.map (·.1) ++ e.ahead
  | .writing e _ key _ => e.entered.map (·.1) ++ key :: e.ahead
  | .acting _ _ commits => commits.map (·.1)
  | .committing _ commits => commits.map (·.1)
  | .ended _ => []

/-- The groups that a phase has entered and has still to commit. -/
def owed : PhaseState → List GroupKey
  | .reading e => e.entered.map (·.1)
  | .writing e _ _ _ => e.entered.map (·.1)
  | .acting _ _ commits => commits.map (·.1)
  | .committing _ commits => commits.map (·.1)
  | _ => []

/-- Everything that a phase enters has the same wanted count. -/
def Wants (target : Nat) : PhaseState → Prop
  | .waiting p => p.replicas.toNat = target
  | .reading e => e.target = target ∧ ∀ x ∈ e.entered, x.2.desired = target
  | .writing e _ _ counts =>
    e.target = target ∧ (∀ x ∈ e.entered, x.2.desired = target) ∧ counts.desired = target
  | .acting _ _ commits => ∀ x ∈ commits, x.2.desired = target
  | .committing _ commits => ∀ x ∈ commits, x.2.desired = target
  | .ended _ => True

section Dispatch

variable (load : Load) (actions : List Action) (commits : List (GroupKey × Instances))

@[simp] theorem due_dispatch (env : Environment) :
    (dispatch load actions commits).due env = commits.map (·.1) :=
  dispatch_induction (P := (·.due env = commits.map (·.1))) rfl fun _ => rfl

@[simp] theorem owed_dispatch : (dispatch load actions commits).owed = commits.map (·.1) :=
  dispatch_induction (P := (·.owed = commits.map (·.1))) rfl fun _ => rfl

theorem wants_dispatch {target : Nat} (h : ∀ x ∈ commits, x.2.desired = target) :
    (dispatch load actions commits).Wants target :=
  dispatch_induction (P := (·.Wants target)) h fun _ => h

end Dispatch

end PhaseState

theorem Environment.ready_target {env : Environment} {p : Phase} {r : ReadyPhase}
    (h : env.ready p = .ok (some r)) : r.target = p.replicas.toNat := by
  unfold Environment.ready at h
  split at h
  · cases h
  · split at h
    · cases h
    · split at h
      · cases h
      · cases h
        rfl

theorem Enrolment.entered_add (e : Enrolment) (o : ObjectTemplate) (key : GroupKey)
    (counts : Instances) : (e.add o key counts).entered = e.entered ++ [(key, counts)] := by
  simp [Enrolment.add, Enrolment.entered]

theorem Enrolment.ahead_add (e : Enrolment) (o : ObjectTemplate) (key : GroupKey)
    (counts : Instances) : (e.add o key counts).ahead = e.ahead := rfl

/-- A phase that goes on to its next namespace, or to its actions, still owes the same groups. -/
theorem Enrolment.due_next (env : Environment) {e : Enrolment} (h : e.left = []) :
    e.next.due env = e.entered.map (·.1) ++ e.ahead := by
  unfold Enrolment.next Enrolment.ahead
  split
  · rename_i hl
    simp [h, hl, groupKeys]
  · rename_i ns later hl
    simp [PhaseState.due, Enrolment.entered, Enrolment.ahead, h, hl, groupKeys]

theorem Enrolment.owed_next (e : Enrolment) : e.next.owed = e.entered.map (·.1) := by
  unfold Enrolment.next
  split
  · exact PhaseState.owed_dispatch _ _ _
  · simp [PhaseState.owed, Enrolment.entered]

theorem Enrolment.wants_next {e : Enrolment} {target : Nat} (ht : e.target = target)
    (he : ∀ x ∈ e.entered, x.2.desired = target) : e.next.Wants target := by
  unfold Enrolment.next
  split
  · exact PhaseState.wants_dispatch _ _ _ he
  · refine ⟨ht, ?_⟩
    simpa [Enrolment.entered] using he

theorem ReadyPhase.due_enrol (env : Environment) (r : ReadyPhase) :
    r.enrol.due env = groupKeys r.namespaces r.bundle := by
  unfold ReadyPhase.enrol
  split
  · rename_i h
    simp [h, groupKeys]
  · rename_i h
    simp [PhaseState.due, Enrolment.entered, Enrolment.ahead, h, groupKeys]

namespace PhaseState

variable {env : Environment} {w w' : World} {q q' : PhaseState} {key : GroupKey} {target : Nat}

theorem Step.wants (h : Step env .any w q w' q') (hq : q.Wants target) : q'.Wants target := by
  cases h with
  | refuse => trivial
  | idle => trivial
  | @enrol p r h =>
    have ht : r.target = target := (Environment.ready_target h).trans hq
    unfold ReadyPhase.enrol
    split
    · exact wants_dispatch _ _ _ nofun
    · exact ⟨ht, by simp [Enrolment.entered]⟩
  | read => exact ⟨hq.1, hq.2, hq.1⟩
  | write =>
    refine ⟨hq.1, ?_⟩
    rw [Enrolment.entered_add]
    intro x hx
    rcases List.mem_append.mp hx with hx | hx
    · exact hq.2.1 x hx
    · rw [List.mem_singleton.mp hx]
      exact hq.2.2
  | next => exact Enrolment.wants_next hq.1 hq.2
  | operate => exact hq
  | finish => exact hq
  | settle => exact hq
  | commit => exact fun x hx => hq x (List.mem_cons_of_mem _ hx)
  | leave => trivial

/-- What is due stays due until it is committed, and nothing else becomes due. -/
theorem Step.due_iff (h : Step env .any w q w' q') :
    key ∈ q.due env ↔ key ∈ q'.due env ∨ q.commits? = some key := by
  cases h with
  | refuse h => simp [due, commits?, Environment.keysOf, h]
  | idle h => simp [due, commits?, Environment.keysOf, h]
  | enrol h =>
    rw [ReadyPhase.due_enrol]
    simp [due, commits?, Environment.keysOf, h]
  | read h => simp [due, commits?, Enrolment.ahead, Enrolment.entered, h]
  | write =>
    rw [due, due, Enrolment.entered_add, Enrolment.ahead_add]
    simp [commits?]
  | next h =>
    rw [Enrolment.due_next env h]
    simp [due, commits?]
  | operate => simp [due, commits?]
  | finish => simp [due, commits?]
  | settle => simp [due, commits?]
  | commit => simp [due, commits?, or_comm, eq_comm]
  | leave => simp [due, commits?]

/-- What is owed stays owed until it is committed. -/
theorem Step.owed (h : Step env .any w q w' q') (hk : key ∈ q.owed) :
    key ∈ q'.owed ∨ q.commits? = some key := by
  cases h with
  | refuse => simp [PhaseState.owed] at hk
  | idle => simp [PhaseState.owed] at hk
  | enrol => simp [PhaseState.owed] at hk
  | read => exact Or.inl hk
  | write =>
    rw [PhaseState.owed, Enrolment.entered_add, List.map_append, List.mem_append]
    exact Or.inl (Or.inl hk)
  | next =>
    rw [Enrolment.owed_next]
    exact Or.inl hk
  | operate => exact Or.inl hk
  | finish => exact Or.inl hk
  | settle => exact Or.inl hk
  | commit => simpa [PhaseState.owed, commits?, or_comm, eq_comm] using hk
  | leave => simp [PhaseState.owed] at hk

/-- A step changes no group but one that the phase owes afterwards or commits. -/
theorem Step.get?_of_not_owed (h : Step env .any w q w' q') (ho : key ∉ q'.owed)
    (hc : q.commits? ≠ some key) : w'.instances.get? key = w.instances.get? key := by
  cases h with
  | @write e o key' counts =>
    have hne : key' ≠ key := by
      rintro rfl
      simp [PhaseState.owed, Enrolment.entered_add] at ho
    rw [Table.get?_put, if_neg hne]
  | operate _ hdone => rw [hdone]
  | @commit _ key' _ _ =>
    have hne : key' ≠ key := fun he => hc (congrArg some he)
    rw [Table.get?_put, if_neg hne]
  | _ => rfl

/-- A commit writes a count that is wanted and reached alike. -/
theorem Step.get?_of_commits (h : Step env .any w q w' q') (hq : q.Wants target)
    (hc : q.commits? = some key) :
    ∃ c, w'.instances.get? key = some c ∧ c.desired = target ∧ c.current = target := by
  cases h with
  | @commit _ key' counts _ =>
    have hkey : key' = key := Option.some.inj hc
    have ht : counts.desired = target := hq (key', counts) List.mem_cons_self
    refine ⟨{ counts with current := counts.desired }, ?_, ht, ht⟩
    rw [Table.get?_put, if_pos hkey]
  | _ => cases hc

end PhaseState

/-! ## The latest commit -/

namespace Interleaving

/-- The position of the phase that has committed a group last. -/
def lastCommit (commits : List (Nat × GroupKey)) (key : GroupKey) : Option Nat :=
  ((commits.filter (·.2 = key)).getLast?).map (·.1)

theorem lastCommit_append_self (commits : List (Nat × GroupKey)) (i : Nat) (key : GroupKey) :
    lastCommit (commits ++ [(i, key)]) key = some i := by
  simp [lastCommit]

theorem lastCommit_append_ne {key key' : GroupKey} (commits : List (Nat × GroupKey)) (i : Nat)
    (h : key' ≠ key) : lastCommit (commits ++ [(i, key')]) key = lastCommit commits key := by
  simp [lastCommit, h]

theorem mem_of_lastCommit {commits : List (Nat × GroupKey)} {key : GroupKey} {i : Nat}
    (h : lastCommit commits key = some i) : (i, key) ∈ commits := by
  obtain ⟨⟨j, k⟩, hl, rfl⟩ := Option.map_eq_some_iff.mp h
  have hm := List.mem_filter.mp (List.mem_of_getLast? hl)
  have hk : k = key := by simpa using hm.2
  exact hk ▸ hm.1

theorem exists_lastCommit {commits : List (Nat × GroupKey)} {key : GroupKey} {i : Nat}
    (h : (i, key) ∈ commits) : ∃ j, lastCommit commits key = some j := by
  have hne : commits.filter (·.2 = key) ≠ [] :=
    List.ne_nil_of_mem (List.mem_filter.mpr ⟨h, by simp⟩)
  exact ⟨_, by rw [lastCommit, List.getLast?_eq_some_getLast hne]; rfl⟩

/-! ## Every interleaving -/

/-- The store has the counts of a group that the target of a phase was committed for. -/
def Reached (s : InstanceStore) (key : GroupKey) (target : Nat) : Prop :=
  ∃ c, s.get? key = some c ∧ c.desired = target ∧ c.current = target

/-- What holds at every moment of an interleaving of phases. -/
structure Coherent (env : Environment) (phases : List Phase) (t : Interleaving) : Prop where
  length : t.phases.length = phases.length
  wants : ∀ (i : Nat) (p : Phase) (q : PhaseState), phases[i]? = some p → t.phases[i]? = some q →
    q.Wants p.replicas.toNat
  /-- A phase works on its own groups, each of which is due or has been committed. -/
  due : ∀ (i : Nat) (p : Phase) (q : PhaseState) key, phases[i]? = some p → t.phases[i]? = some q →
    (key ∈ env.keysOf p ↔ key ∈ q.due env ∨ (i, key) ∈ t.commits)
  committed : ∀ (i : Nat) (key : GroupKey), (i, key) ∈ t.commits → i < phases.length
  /-- A group that no phase owes holds what was committed last. -/
  settled : ∀ key, (∃ q ∈ t.phases, key ∈ q.owed) ∨
    ∀ (i : Nat) (p : Phase), lastCommit t.commits key = some i → phases[i]? = some p →
      Reached t.world.instances key p.replicas.toNat

variable {env : Environment} {phases : List Phase}

theorem coherent_start (w : World) (phases : List Phase) :
    Coherent env phases (start w phases) where
  length := by simp [start]
  wants := by
    intro i p q hp hq
    rw [start, List.getElem?_map, hp] at hq
    cases hq
    rfl
  due := by
    intro i p q key hp hq
    rw [start, List.getElem?_map, hp] at hq
    cases hq
    simp [PhaseState.due, start]
  committed := by simp [start]
  settled := fun key => Or.inr (by simp [start, lastCommit])

theorem Coherent.step {t t' : Interleaving} (h : Coherent env phases t) (hs : Step env .any t t') :
    Coherent env phases t' := by
  obtain @⟨w, w', before, q, q', after, commits, hq⟩ := hs
  have hself := getElem?_middle before after q
  -- what the moving phase was, and what the others were, before the step
  have hcommits : ∀ i key, (i, key) ∈ (q.commits?.map (before.length, ·)).toList ↔
      i = before.length ∧ q.commits? = some key := by
    intro i key
    cases q.commits? with
    | none => simp
    | some key' => simp [eq_comm]
  constructor
  · simpa using h.length
  · intro i p r hp hr
    by_cases hi : i = before.length
    · subst hi
      rw [getElem?_middle] at hr
      cases hr
      exact hq.wants (h.wants _ p q hp hself)
    · rw [getElem?_of_ne q q' hi] at hr
      exact h.wants i p r hp hr
  · intro i p r key hp hr
    rw [List.mem_append, hcommits]
    by_cases hi : i = before.length
    · subst hi
      rw [getElem?_middle] at hr
      cases hr
      rw [h.due _ p q key hp hself, hq.due_iff]
      simp only [true_and, or_assoc, or_comm]
    · rw [getElem?_of_ne q q' hi] at hr
      rw [h.due i p r key hp hr]
      simp [hi]
  · intro i key hik
    rcases List.mem_append.mp hik with hik | hik
    · exact h.committed i key hik
    · rw [((hcommits i key).mp hik).1, ← h.length]
      simp
  · intro key
    by_cases ho : key ∈ q'.owed
    · exact Or.inl ⟨q', by simp, ho⟩
    · by_cases hc : q.commits? = some key
      · -- this commit is the last one
        refine Or.inr fun i p hi hp => ?_
        rw [hc] at hi
        cases (lastCommit_append_self commits before.length key).symm.trans hi
        exact hq.get?_of_commits (h.wants _ p q hp hself) hc
      · have hget := hq.get?_of_not_owed ho hc
        have hlast : lastCommit (commits ++ (q.commits?.map (before.length, ·)).toList) key =
            lastCommit commits key := by
          cases hq' : q.commits? with
          | none => simp
          | some key' =>
            exact lastCommit_append_ne commits _ fun he => hc (hq'.trans (congrArg some he))
        rcases h.settled key with ⟨r, hr, hrk⟩ | hset
        · rcases List.mem_append.mp hr with hr | hr
          · exact Or.inl ⟨r, List.mem_append_left _ hr, hrk⟩
          · rcases List.mem_cons.mp hr with rfl | hr
            · exact absurd (hq.owed hrk) (by simp [ho, hc])
            · exact Or.inl ⟨r, List.mem_append_right _ (List.mem_cons_of_mem _ hr), hrk⟩
        · refine Or.inr fun i p hi hp => ?_
          rw [hlast] at hi
          unfold Reached
          rw [hget]
          exact hset i p hi hp

theorem coherent_of_reaches {w : World} {t : Interleaving}
    (h : Reaches env .any (start w phases) t) : Coherent env phases t := by
  induction h with
  | refl => exact coherent_start w phases
  | tail _ hs ih => exact ih.step hs

/-- When all phases have returned, every group that one of them works on has reached what it wants,
and that is the target of the phase that has committed it last. -/
theorem quiescent {w : World} {t : Interleaving} {p : Phase} {key : GroupKey}
    (h : Reaches env .any (start w phases) t) (he : t.Ended) (hp : p ∈ phases)
    (hk : key ∈ env.keysOf p) :
    ∃ i q c, lastCommit t.commits key = some i ∧ phases[i]? = some q ∧ key ∈ env.keysOf q ∧
      t.world.instances.get? key = some c ∧
      c.desired = q.replicas.toNat ∧ c.current = q.replicas.toNat := by
  have hc := coherent_of_reaches h
  have hdue : ∀ q ∈ t.phases, q.due env = [] ∧ q.owed = [] := by
    intro q hq
    have := he q hq
    cases q <;> simp_all [PhaseState.isEnded, PhaseState.due, PhaseState.owed]
  -- the phase has committed the group, so that somebody has committed it last
  obtain ⟨i, hi⟩ := List.getElem?_of_mem hp
  have hcommitted : ∀ i p, phases[i]? = some p → ∀ key,
      (key ∈ env.keysOf p ↔ (i, key) ∈ t.commits) := by
    intro i p hi key
    have hlt : i < t.phases.length := by
      rw [hc.length]
      exact (List.getElem?_eq_some_iff.mp hi).1
    have hq := List.getElem?_eq_getElem hlt
    rw [hc.due i p _ key hi hq, (hdue _ (List.mem_of_getElem? hq)).1]
    simp
  obtain ⟨j, hj⟩ := exists_lastCommit ((hcommitted i p hi key).mp hk)
  have hmem := mem_of_lastCommit hj
  have hq := List.getElem?_eq_getElem (hc.committed j key hmem)
  rcases hc.settled key with ⟨r, hr, hrk⟩ | hset
  · rw [(hdue r hr).2] at hrk
    simp at hrk
  · obtain ⟨c, hget, hd, hcur⟩ := hset j _ hj hq
    exact ⟨j, _, c, hj, hq, (hcommitted j _ hq key).mpr hmem, hget, hd, hcur⟩

/-- Two phases that want different counts of one group. -/
theorem quiescent_samplePhase :
    ∃ t, Reaches sampleEnvironment .any (start {} [samplePhase "a" 2, samplePhase "a" 1]) t ∧
      t.Ended ∧ ∃ i q c, lastCommit t.commits ("", ⟨"a", "A", ""⟩) = some i ∧
        [samplePhase "a" 2, samplePhase "a" 1][i]? = some q ∧
        ("", ⟨"a", "A", ""⟩) ∈ sampleEnvironment.keysOf q ∧
        t.world.instances.get? ("", ⟨"a", "A", ""⟩) = some c ∧
        c.desired = q.replicas.toNat ∧ c.current = q.replicas.toNat := by
  obtain ⟨t, hr, he⟩ := exists_ended sampleEnvironment
    (start {} [samplePhase "a" 2, samplePhase "a" 1])
  refine ⟨t, hr.any, he, quiescent hr.any he (p := samplePhase "a" 2) (by simp) ?_⟩
  simp [keysOf_samplePhase]

end Interleaving

end ReplicaLoad

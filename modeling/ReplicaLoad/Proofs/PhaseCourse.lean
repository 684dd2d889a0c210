-- The course of a phase. What a phase does is settled by the store that it
-- meets: as long as nobody else touches its groups, the actions that it
-- dispatches and the counts that it enters and commits are those that it would
-- have planned at once.
import ReplicaLoad.Proofs.Quiescence

namespace ReplicaLoad

/-- What a phase plans in a store: its actions, the counts that it enters, and the store with them.
A phase that cannot begin plans nothing. -/
structure Course where
  actions : List Action
  commits : List (GroupKey × Instances)
  dispatched : InstanceStore
  /-- The crash of the tuning set that is to start the actions. -/
  crash : Option String

namespace Course

def final (c : Course) : InstanceStore := c.dispatched.commit c.commits

/-- The actions that are started: all of them, or none. -/
def started (c : Course) : List Action :=
  match c.crash with
  | none => c.actions
  | some _ => []

theorem started_of_crash_eq_none {c : Course} (h : c.crash = none) : c.started = c.actions := by
  unfold started
  rw [h]

theorem started_sublist (c : Course) : c.started.Sublist c.actions := by
  unfold started
  split
  · exact .refl _
  · exact List.nil_sublist _

end Course

def Environment.course (env : Environment) (p : Phase) (s : InstanceStore) : Course :=
  match env.ready p with
  | .ok (some r) =>
    let (actions, commits, dispatched) := s.plan r.bundle r.target r.namespaces
    ⟨actions, commits, dispatched, r.load.crash? actions.length⟩
  | _ => ⟨[], [], s, none⟩

theorem Environment.course_ready {env : Environment} {p : Phase} {r : ReadyPhase}
    (h : env.ready p = .ok (some r)) (s : InstanceStore) :
    env.course p s =
      ⟨(s.plan r.bundle r.target r.namespaces).1, (s.plan r.bundle r.target r.namespaces).2.1,
        (s.plan r.bundle r.target r.namespaces).2.2,
        r.load.crash? (s.plan r.bundle r.target r.namespaces).1.length⟩ := by
  unfold Environment.course
  rw [h]

theorem Environment.course_of_not_ready {env : Environment} {p : Phase}
    (h : ∀ r, env.ready p ≠ .ok (some r)) (s : InstanceStore) :
    env.course p s = ⟨[], [], s, none⟩ := by
  unfold Environment.course
  split
  · exact absurd ‹_› (h _)
  · rfl

/-- Whether the tuning set of a phase can start what the phase plans in a store. -/
def Environment.Starts (env : Environment) (s : InstanceStore) (p : Phase) : Prop :=
  (env.course p s).crash = none

/-- Only a phase that can begin has actions that cannot be started. -/
theorem Environment.exists_ready_of_not_starts {env : Environment} {s : InstanceStore} {p : Phase}
    (h : ¬ env.Starts s p) : ∃ r, env.ready p = .ok (some r) := by
  by_contra hnone
  unfold Environment.Starts at h
  rw [Environment.course_of_not_ready fun r hr => hnone ⟨r, hr⟩] at h
  exact h rfl

/-- The tuning set of a phase can start everything but a number of actions over a time limit whose
last 32 bits are zeros. -/
theorem Environment.starts_iff (env : Environment) (s : InstanceStore) (p : Phase) :
    env.Starts s p ↔ ∀ r limit, env.ready p = .ok (some r) → r.load = .timeLimited limit →
      (env.course p s).actions.length % twoTo 32 = 0 → (env.course p s).actions = [] := by
  constructor
  · intro h r limit hr hlimit hbits
    unfold Environment.Starts at h
    rw [Environment.course_ready hr] at h hbits ⊢
    exact List.length_eq_zero_iff.mp ((Load.crash?_eq_none_iff _ _).mp h limit hlimit hbits)
  · intro h
    by_contra hnot
    obtain ⟨r, hr⟩ := Environment.exists_ready_of_not_starts hnot
    unfold Environment.Starts at hnot
    rw [Environment.course_ready hr] at h hnot
    exact hnot ((Load.crash?_eq_none_iff _ _).mpr fun limit hlimit hbits =>
      List.length_eq_zero_iff.mpr (h r limit hr hlimit hbits))

/-- The actions that a phase dispatches when it begins. -/
def World.plannedActions (w : World) (env : Environment) (p : Phase) : List Action :=
  match env.ready p with
  | .ok (some r) => (w.instances.plan r.bundle r.target r.namespaces).1
  | _ => []

theorem World.plannedActions_eq (w : World) (env : Environment) (p : Phase) :
    w.plannedActions env p = (env.course p w.instances).actions := by
  unfold World.plannedActions Environment.course
  cases env.ready p with
  | error e => rfl
  | ok r => cases r <;> rfl

/-- Only a phase that can begin has actions. -/
theorem Environment.exists_ready_of_mem_course {env : Environment} {p : Phase} {s : InstanceStore}
    {a : Action} (ha : a ∈ (env.course p s).actions) : ∃ r, env.ready p = .ok (some r) := by
  by_contra h
  rw [Environment.course_of_not_ready (fun r hr => h ⟨r, hr⟩)] at ha
  cases ha

/-- The course of a phase that is entering its counts. -/
def Enrolment.course (e : Enrolment) (s : InstanceStore) : Course :=
  let (actions, commits, dispatched) := e.finish s
  ⟨actions, commits, dispatched, e.load.crash? actions.length⟩

def InstanceStore.Agree (own : GroupKey → Prop) (s s' : InstanceStore) : Prop :=
  ∀ key, own key → s.get? key = s'.get? key

/-- Two courses are the same as far as some groups are concerned. -/
structure Course.Same (own : GroupKey → Prop) (c d : Course) : Prop where
  actions : c.actions = d.actions
  commits : c.commits = d.commits
  dispatched : c.dispatched.Agree own d.dispatched
  crash : c.crash = d.crash

namespace InstanceStore

/-! ## What a plan reads -/

theorem count_congr {s s' : InstanceStore} {key : GroupKey} (h : s'.get? key = s.get? key) :
    s'.count key = s.count key := by
  rw [count, h, count]

theorem put_congr {s s' : InstanceStore} {key : GroupKey} (key' : GroupKey) (counts : Instances)
    (h : s'.get? key = s.get? key) :
    (s'.put key' counts).get? key = (s.put key' counts).get? key := by
  rw [Table.get?_put, Table.get?_put, h]

theorem commit_congr {s s' : InstanceStore} {key : GroupKey}
    (commits : List (GroupKey × Instances)) (h : s'.get? key = s.get? key) :
    (s'.commit commits).get? key = (s.commit commits).get? key := by
  induction commits generalizing s s' with
  | nil => exact h
  | cons c rest ih => exact ih (put_congr c.1 _ h)

theorem wanted_congr {s s' : InstanceStore} {key : GroupKey} (target : Nat)
    (bundle : List (ObjectTemplate × ReplicaGroup)) (h : s'.get? key = s.get? key) :
    s'.wanted target bundle key = s.wanted target bundle key :=
  aim_congr _ target h

variable {s s' : InstanceStore} {bundle : List (ObjectTemplate × ReplicaGroup)} {target : Nat}

theorem aimAll_congr {ns : String}
    (h : ∀ g ∈ bundle.map (·.2), s'.get? (ns, g) = s.get? (ns, g)) :
    (s'.aimAll ns target bundle).1 = (s.aimAll ns target bundle).1 := by
  rw [aimAll_aimed, aimAll_aimed]
  refine List.map_congr_left fun e he => ?_
  rw [wanted_congr target bundle (h e.2 (List.mem_map_of_mem he))]

theorem aimAll_get?_congr {ns : String} {key : GroupKey} (h : s'.get? key = s.get? key) :
    (s'.aimAll ns target bundle).2.get? key = (s.aimAll ns target bundle).2.get? key := by
  rw [aimAll_get?, aimAll_get?, wanted_congr target bundle h, h]

theorem plan_get?_congr {namespaces : List String} {key : GroupKey}
    (h : s'.get? key = s.get? key) :
    (s'.plan bundle target namespaces).2.2.get? key =
      (s.plan bundle target namespaces).2.2.get? key := by
  rw [plan_get?, plan_get?, wanted_congr target bundle h, h]

theorem plan_commits_congr {namespaces : List String}
    (h : ∀ key ∈ groupKeys namespaces bundle, s'.get? key = s.get? key) :
    (s'.plan bundle target namespaces).2.1 = (s.plan bundle target namespaces).2.1 := by
  rw [plan_commits, plan_commits]
  refine List.map_congr_left fun key hk => ?_
  rw [wanted_congr target bundle (h key hk)]

theorem plan_actions_congr {namespaces : List String}
    (h : ∀ key ∈ groupKeys namespaces bundle, s'.get? key = s.get? key) :
    (s'.plan bundle target namespaces).1 = (s.plan bundle target namespaces).1 := by
  rw [plan_actions, plan_actions]
  refine List.flatMap_congr fun ns hns => ?_
  congr 1
  refine List.map_congr_left fun e he => ?_
  have hk : (ns, e.2) ∈ groupKeys namespaces bundle :=
    mem_groupKeys.mpr ⟨hns, List.mem_map_of_mem he⟩
  rw [count_congr (h _ hk)]

end InstanceStore

theorem Course.Same.trans {own : GroupKey → Prop} {c d e : Course} (h : c.Same own d)
    (h' : d.Same own e) : c.Same own e where
  actions := h.actions.trans h'.actions
  commits := h.commits.trans h'.commits
  dispatched := fun key hk => (h.dispatched key hk).trans (h'.dispatched key hk)
  crash := h.crash.trans h'.crash

theorem Course.Same.started {own : GroupKey → Prop} {c d : Course} (h : c.Same own d) :
    c.started = d.started := by
  unfold Course.started
  rw [h.crash, h.actions]

theorem Course.Same.final {own : GroupKey → Prop} {c d : Course} (h : c.Same own d) :
    c.final.Agree own d.final := by
  intro key hk
  unfold Course.final
  rw [h.commits]
  exact InstanceStore.commit_congr _ (h.dispatched key hk)

variable {env : Environment} {own : GroupKey → Prop} {s s' : InstanceStore}

/-- A phase plans from the counts of its own groups alone. -/
theorem Environment.course_same {p : Phase} (hp : ∀ key ∈ env.keysOf p, own key)
    (h : s'.Agree own s) : (env.course p s').Same own (env.course p s) := by
  unfold Environment.keysOf at hp
  unfold Environment.course
  split
  · rename_i r hr
    rw [hr] at hp
    have hk := fun key hkey => h key (hp key hkey)
    have hactions : (s'.plan r.bundle r.target r.namespaces).1 =
        (s.plan r.bundle r.target r.namespaces).1 := InstanceStore.plan_actions_congr hk
    exact {
      actions := hactions
      commits := InstanceStore.plan_commits_congr hk
      dispatched := fun key hown => InstanceStore.plan_get?_congr (h key hown)
      crash := congrArg (fun actions : List Action => r.load.crash? actions.length) hactions }
  · exact ⟨rfl, rfl, h, rfl⟩

/-- What a phase has still to plan depends on the groups that it has still to enter alone. -/
theorem Enrolment.course_same {e : Enrolment} (he : ∀ key ∈ e.ahead, own key)
    (h : s'.Agree own s) : (e.course s').Same own (e.course s) := by
  have hleft : ∀ g ∈ e.left.map (·.2), s'.get? (e.ns, g) = s.get? (e.ns, g) := by
    intro g hg
    obtain ⟨x, hx, rfl⟩ := List.mem_map.mp hg
    exact h _ (he _ (List.mem_append_left _ (List.mem_map.mpr ⟨x, hx, rfl⟩)))
  have hlater : ∀ key ∈ groupKeys e.later e.bundle,
      (s'.aimAll e.ns e.target e.left).2.get? key = (s.aimAll e.ns e.target e.left).2.get? key :=
    fun key hk => InstanceStore.aimAll_get?_congr (h key (he key (List.mem_append_right _ hk)))
  have hfill : e.fill s' = e.fill s := by
    unfold Enrolment.fill
    rw [InstanceStore.aimAll_congr hleft]
  have hactions : (e.finish s').1 = (e.finish s).1 := by
    change (e.fill s').planned ++ _ = (e.fill s).planned ++ _
    rw [hfill, InstanceStore.plan_actions_congr hlater]
  constructor
  · exact hactions
  · change (e.fill s').entered ++ _ = (e.fill s).entered ++ _
    rw [hfill, InstanceStore.plan_commits_congr hlater]
  · intro key hk
    exact InstanceStore.plan_get?_congr (InstanceStore.aimAll_get?_congr (h key hk))
  · change e.load.crash? (e.finish s').1.length = _
    rw [hactions]
    rfl

/-! ## Staying on course -/

namespace PhaseState

/-- What a phase has done and has still to do is a part of a course, as far as some groups are
concerned. -/
def OnCourse (env : Environment) (own : GroupKey → Prop) (c : Course) (s : InstanceStore) :
    PhaseState → Prop
  | .waiting p => (env.course p s).Same own c
  | .reading e => (e.course s).Same own c
  | .writing e o key counts => ((e.add o key counts).course (s.put key counts)).Same own c
  | .acting _ _ commits => c.crash = none ∧ commits = c.commits ∧ s.Agree own c.dispatched
  | .committing e commits =>
    e.crash? = c.crash ∧ InstanceStore.Agree own (s.commit commits) c.final
  | .ended e => e.crash? = c.crash ∧ s.Agree own c.final

def pending (c : Course) : PhaseState → List Action
  | .acting _ actions _ => actions
  | .committing _ _ => []
  | .ended _ => []
  | _ => c.started

variable {c : Course} {w w' : World} {q q' : PhaseState}

/-- Actions that are dispatched as they were planned, or a crash instead of them. -/
theorem onCourse_dispatch {load : Load} {actions : List Action}
    {commits : List (GroupKey × Instances)}
    (h : Course.Same own ⟨actions, commits, s, load.crash? actions.length⟩ c) :
    (dispatch load actions commits).OnCourse env own c s := by
  have hcrash : load.crash? actions.length = c.crash := h.crash
  unfold dispatch
  split
  · rename_i hnone
    exact ⟨hcrash.symm.trans hnone, h.commits, h.dispatched⟩
  · rename_i reason hsome
    exact ⟨hsome.symm.trans hcrash, h.final⟩

/-- With a crash none of the actions that were planned is pending. -/
theorem pending_dispatch {load : Load} {actions : List Action}
    {commits : List (GroupKey × Instances)} {s : InstanceStore}
    (h : Course.Same own ⟨actions, commits, s, load.crash? actions.length⟩ c) :
    (dispatch load actions commits).pending c = c.started := by
  rw [← h.started]
  unfold dispatch Course.started
  dsimp only
  cases load.crash? actions.length with
  | none => rfl
  | some reason => rfl

/-- A phase keeps to its course. -/
theorem Step.onCourse (h : Step env .any w q w' q') (hq : q.OnCourse env own c w.instances) :
    q'.OnCourse env own c w'.instances := by
  cases h with
  | @refuse p e h =>
    rw [OnCourse, Environment.course_of_not_ready (by simp [h])] at hq
    exact ⟨hq.crash, hq.final⟩
  | @idle p h =>
    rw [OnCourse, Environment.course_of_not_ready (by simp [h])] at hq
    exact ⟨hq.crash, hq.final⟩
  | @enrol p r h =>
    rw [OnCourse, Environment.course_ready h] at hq
    unfold ReadyPhase.enrol
    split
    · rename_i hn
      rw [hn] at hq
      exact onCourse_dispatch hq
    · rename_i ns later hn
      rw [← r.finish_first w.instances hn] at hq
      exact hq
  | read h =>
    rw [OnCourse, Enrolment.course, Enrolment.finish_read _ _ h] at hq
    exact hq
  | write => exact hq
  | @next e h =>
    rw [OnCourse, Enrolment.course] at hq
    unfold Enrolment.next
    split
    · rename_i hl
      rw [e.finish_last _ h hl] at hq
      exact onCourse_dispatch hq
    · rename_i ns later hl
      rw [e.finish_next _ h hl] at hq
      exact hq
  | operate _ hdone =>
    rw [OnCourse, hdone]
    exact hq
  | finish => exact hq
  | settle =>
    -- what is in the store, with the commits that are to come, is the end of the course
    obtain ⟨hcrash, rfl, hagree⟩ := hq
    exact ⟨hcrash.symm, fun key hk => InstanceStore.commit_congr _ (hagree key hk)⟩
  | commit => exact hq
  | leave => exact hq

/-- Changes of other groups do not take a phase off its course. -/
theorem OnCourse.frame {s s' : InstanceStore} (hdue : ∀ key ∈ q.due env, own key)
    (h : s'.Agree own s) (hq : q.OnCourse env own c s) : q.OnCourse env own c s' := by
  cases q with
  | waiting p => exact (Environment.course_same hdue h).trans hq
  | reading e =>
    exact (Enrolment.course_same (fun key hk => hdue key (List.mem_append_right _ hk)) h).trans hq
  | writing e o key counts =>
    refine (Enrolment.course_same (fun key' hk => hdue key' ?_) fun key' hk =>
      InstanceStore.put_congr key counts (h key' hk)).trans hq
    exact List.mem_append_right _ (List.mem_cons_of_mem _ hk)
  | acting errors actions commits =>
    exact ⟨hq.1, hq.2.1, fun key hk => (h key hk).trans (hq.2.2 key hk)⟩
  | committing e commits =>
    exact ⟨hq.1, fun key hk => (InstanceStore.commit_congr commits (h key hk)).trans (hq.2 key hk)⟩
  | ended e => exact ⟨hq.1, fun key hk => (h key hk).trans (hq.2 key hk)⟩

end PhaseState

end ReplicaLoad

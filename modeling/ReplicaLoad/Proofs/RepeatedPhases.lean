-- Repeated phases. A phase that has returned has reached its target in all its
-- groups, even where its operations have failed. So when it is executed again
-- all that is left to plan are patches: the counts stay as they are, and no
-- object comes or goes.
import ReplicaLoad.Proofs.DisjointPhases
import ReplicaLoad.Proofs.PhaseCounts
import ReplicaLoad.Proofs.TouchedNamespaces

namespace ReplicaLoad

/-! ## Plans at the target -/

theorem greatestCount_of_reached {bundle : List (ObjectTemplate × Nat)} {target : Nat}
    (h : ∀ e ∈ bundle, e.2 = target) : greatestCount bundle ≤ target := by
  by_contra hgt
  obtain ⟨e, he, hlt⟩ := lt_greatestCount.mp (Nat.lt_of_not_le hgt)
  exact absurd (h e he) (by omega)

/-- At the target everything is patched. -/
theorem applications_of_reached {bundle : List (ObjectTemplate × Nat)} {target : Nat}
    (h : ∀ e ∈ bundle, e.2 = target) (i : Nat) :
    applications bundle target i = bundle.map fun e => ⟨e.1, .patch⟩ := by
  unfold applications
  rw [← List.filterMap_eq_map]
  exact List.filterMap_congr fun e he => by simp [application, h e he]

/-- A bundle that has reached its target is patched at every index below it. -/
theorem planNamespace_of_reached (ns : String) {bundle : List (ObjectTemplate × Nat)} {target : Nat}
    (hne : bundle ≠ []) (h : ∀ e ∈ bundle, e.2 = target) :
    planNamespace ns bundle target =
      (List.range target).map fun i => ⟨ns, i, .apply, bundle.map fun e => ⟨e.1, .patch⟩⟩ := by
  obtain ⟨e, he⟩ := List.exists_mem_of_ne_nil _ hne
  have hdeleted : between target (greatestCount bundle) = [] := by
    unfold between
    rw [Nat.sub_eq_zero_of_le (greatestCount_of_reached h)]
    rfl
  have happlied : between (firstApplied bundle target) target = List.range target := by
    rw [firstApplied_of_reached he (h e he), between, Nat.sub_zero, List.range_eq_range']
  unfold planNamespace
  rw [if_neg (by simpa using hne), hdeleted, happlied, List.map_nil, List.nil_append]
  exact List.map_congr_left fun i _ => by rw [applications_of_reached h]

/-- The actions that patch the objects of a bundle at every index below a target. -/
def patchPlan (namespaces : List String) (bundle : List ObjectTemplate) (target : Nat) :
    List Action :=
  namespaces.flatMap fun ns =>
    (List.range target).map fun i => ⟨ns, i, .apply, bundle.map fun o => ⟨o, .patch⟩⟩

theorem plan_of_reached {bundle : List (ObjectTemplate × ReplicaGroup)} {target : Nat}
    {s : InstanceStore} {namespaces : List String} (hne : bundle ≠ [])
    (h : ∀ key ∈ groupKeys namespaces bundle, s.count key = target) :
    (s.plan bundle target namespaces).1 = patchPlan namespaces (bundle.map (·.1)) target := by
  rw [InstanceStore.plan_actions]
  refine List.flatMap_congr fun ns hns => ?_
  rw [planNamespace_of_reached ns (by simpa using hne), List.map_map, List.map_map]
  · rfl
  · intro e he
    obtain ⟨e', he', rfl⟩ := List.mem_map.mp he
    exact h _ (mem_groupKeys.mpr ⟨hns, List.mem_map_of_mem he'⟩)

theorem patch_of_mem_patchPlan {namespaces : List String} {bundle : List ObjectTemplate}
    {target : Nat} {a : Action} (ha : a ∈ patchPlan namespaces bundle target) :
    ∀ op ∈ a.operations, op.operation = .patch := by
  obtain ⟨ns, -, ha⟩ := List.mem_flatMap.mp ha
  obtain ⟨i, -, rfl⟩ := List.mem_map.mp ha
  intro op hop
  obtain ⟨o, -, rfl⟩ := List.mem_map.mp hop
  rfl

/-! ## Patches -/

/-- The same keys are held. -/
def Cluster.SameKeys (c c' : Cluster) : Prop :=
  ∀ k, (c'.objects.get? k).isSome = (c.objects.get? k).isSome

theorem Cluster.patch_sameKeys (c : Cluster) (ns name : String) (o : Object) :
    c.SameKeys (c.patch ns name o).2 := by
  intro k
  rw [← isSome_view, ← isSome_view, (c.patch_answers ns name o).1.view]
  split
  · rename_i h
    -- a patch goes through only where an object is held
    obtain ⟨rfl, href⟩ := h
    have hheld : (c.view ((Request.patch o).key ns name)).isSome = true := by
      unfold refusal Request.refusal at href
      split at href
      · cases href
      · cases hview : (c.view ((Request.patch o).key ns name)).isSome
        · rw [hview] at href
          cases href
        · rfl
    rw [hheld]
    rfl
  · rfl

/-- A patch adds no object and removes none, whatever becomes of it. -/
theorem World.perform_patch_sameKeys (w : World) (env : Environment) (a : Action)
    {op : ObjectOperation} (hop : op.operation = .patch) :
    w.cluster.SameKeys (w.perform env a op).world.cluster := by
  rcases w.perform_cases env a op with ⟨_, -, -, hw⟩ | ⟨_, _, -, -, -, hw⟩ | ⟨r, hr, -, -, hw⟩
  · rw [hw]
    exact fun _ => rfl
  · rw [hw]
    exact fun _ => rfl
  · have hpatch := Environment.request_operation hr
    rw [hop] at hpatch
    cases r with
    | patch o =>
      rw [hw, World.cluster_send]
      exact w.cluster.patch_sameKeys a.ns (op.object.objectName a.index) o
    | _ => cases hpatch

namespace PhaseState

/-- All that is left to a phase are patches. -/
def OnlyPatches (c : Course) (q : PhaseState) : Prop :=
  ∀ a ∈ q.pending c, ∀ op ∈ a.operations, op.operation = .patch

variable {env : Environment} {c : Course} {w w' : World} {q q' : PhaseState}

theorem Books.onlyPatches (hb : Books env c w q w' q') (hq : q.OnlyPatches c) :
    q'.OnlyPatches c ∧ w.cluster.SameKeys w'.cluster := by
  unfold OnlyPatches at hq ⊢
  cases hb with
  | same cluster actions errors =>
    rw [actions, cluster]
    exact ⟨hq, fun _ => rfl⟩
  | @operate before a op rest after next old world actions errors =>
    rw [old] at hq
    have ha : ∀ op' ∈ op :: rest, op'.operation = .patch := next ▸ hq a (by simp)
    constructor
    · rw [actions]
      intro b hb
      rcases List.mem_append.mp hb with hb | hb
      · exact hq b (List.mem_append_left _ hb)
      rcases List.mem_append.mp hb with hb | hb
      · unfold Performed.remains at hb
        split at hb
        · rw [List.mem_singleton.mp hb]
          exact fun op' hop' => ha op' (List.mem_cons_of_mem _ hop')
        · cases hb
      · exact hq b (List.mem_append_right _ (List.mem_cons_of_mem _ hb))
    · rw [world]
      exact w.perform_patch_sameKeys env a (ha op List.mem_cons_self)
  | @finish before a after last old cluster actions errors =>
    rw [old] at hq
    rw [actions, cluster]
    refine ⟨fun b hb => hq b ?_, fun _ => rfl⟩
    rcases List.mem_append.mp hb with hb | hb
    · exact List.mem_append_left _ hb
    · exact List.mem_append_right _ (List.mem_cons_of_mem _ hb)

/-- A phase that plans patches only adds no object and removes none. -/
theorem Goes.sameKeys {p : Phase} (hp : ∀ a ∈ w.plannedActions env p, ∀ op ∈ a.operations,
      op.operation = .patch) (h : Goes env env.performs (w, .waiting p) (w', q)) :
    w.cluster.SameKeys w'.cluster := by
  have hgoes : ∀ x y : World × PhaseState, Goes env env.performs x y →
      x.2.OnCourse env (fun _ => True) (env.course p w.instances) x.1.instances →
      x.2.OnlyPatches (env.course p w.instances) → w.cluster.SameKeys x.1.cluster →
      y.2.OnCourse env (fun _ => True) (env.course p w.instances) y.1.instances ∧
        y.2.OnlyPatches (env.course p w.instances) ∧ w.cluster.SameKeys y.1.cluster := by
    intro x y hxy hx ho hk
    induction hxy with
    | refl => exact ⟨hx, ho, hk⟩
    | tail _ hs ih =>
      obtain ⟨hcourse, ho, hk⟩ := ih
      obtain ⟨ho', hk'⟩ := (hs.books hcourse).onlyPatches ho
      exact ⟨hs.any.onCourse hcourse, ho', fun k => (hk' k).trans (hk k)⟩
  rw [World.plannedActions_eq] at hp
  have hstart : (waiting p).OnlyPatches (env.course p w.instances) :=
    fun a ha => hp a ((Course.started_sublist _).subset ha)
  exact (hgoes _ _ h ⟨rfl, rfl, fun _ _ => rfl, rfl⟩ hstart fun _ => rfl).2.2

end PhaseState

/-! ## The same phase again -/

/-- The counts stay as they are, and no object comes or goes. -/
structure Unmoved (w w' : World) : Prop where
  counts : ∀ key, w'.instances.get? key = w.instances.get? key
  objects : w.cluster.SameKeys w'.cluster

section Repeated

variable {env : Environment} {p : Phase} {load : Load}
  {bundle : List (ObjectTemplate × ReplicaGroup)} {w w₁ : World} {e₁ : UnitEnd}
  (hl : env.tuningSets.select p.tuningSet = .ok load) (hb : env.identifyAll p.bundle = .ok bundle)
  (first : PhaseState.Goes env .any (w, .waiting p) (w₁, .ended e₁))

include hl hb first

/-- After a phase its own plan patches everything that it wants. -/
theorem plannedActions_of_returned (hne : p.bundle ≠ []) :
    w₁.plannedActions env p =
      patchPlan (namespaceList env.scope p.range) p.bundle p.replicas.toNat := by
  have hbundle := identifyAll_fst hb
  rw [World.plannedActions_eq, Environment.course_of_resolves hl hb, ← hbundle]
  refine plan_of_reached ?_ fun key hk => ?_
  · rintro rfl
    exact hne hbundle.symm
  · rw [first.count_ended, if_pos (by rwa [Environment.keysOf_of_resolves hl hb])]

/-- The counts that a phase has reached are those that it leaves the second time. -/
theorem get?_of_returned_twice {w₂ : World} {e₂ : UnitEnd}
    (second : PhaseState.Goes env .any (w₁, .waiting p) (w₂, .ended e₂)) (key : GroupKey) :
    w₂.instances.get? key = w₁.instances.get? key := by
  rw [second.get?_ended hl hb]
  split
  · rename_i hk
    have hget := first.get?_ended hl hb key
    rw [if_pos hk] at hget
    rw [hget, InstanceStore.templateOf, hget]
    rfl
  · rfl

/-- A phase that is executed again, whatever became of it the first time, plans nothing but patches
of everything that it wants, and moves nothing. -/
theorem repeated_phase (hne : p.bundle ≠ []) :
    w₁.plannedActions env p =
      patchPlan (namespaceList env.scope p.range) p.bundle p.replicas.toNat ∧
    (∀ w₂ e₂, PhaseState.Goes env env.performs (w₁, .waiting p) (w₂, .ended e₂) → Unmoved w₁ w₂) ∧
    ∀ step now, Unmoved w₁ (w₁.runPhases env step now [p]).2.1 := by
  have hplan := plannedActions_of_returned hl hb first hne
  have hpatches : ∀ a ∈ w₁.plannedActions env p, ∀ op ∈ a.operations, op.operation = .patch := by
    intro a ha
    rw [hplan] at ha
    exact patch_of_mem_patchPlan ha
  have hall : ∀ w₂ e₂, PhaseState.Goes env env.performs (w₁, .waiting p) (w₂, .ended e₂) →
      Unmoved w₁ w₂ := fun w₂ e₂ second =>
    ⟨get?_of_returned_twice hl hb first second.any, second.sameKeys hpatches⟩
  refine ⟨hplan, hall, fun step now => ?_⟩
  obtain ⟨e₂, second, -⟩ := runPhases_goes env step w₁ now p
  exact hall _ e₂ second

end Repeated

/-- A phase of the sample, executed twice on a cluster that refuses one of its replicas. -/
theorem repeated_phase_samplePhase :
    sampleEnvironment.tuningSets.select (samplePhase "a" 2).tuningSet =
      .ok (.parallelismLimited 1) ∧
    sampleEnvironment.identifyAll (samplePhase "a" 2).bundle =
      .ok [(sampleTemplate "a", ⟨"a", "A", ""⟩)] ∧
    (samplePhase "a" 2).bundle ≠ [] ∧
    ∃ w w₁ : World, w.cluster.failingNames = ["a-1"] ∧
      w₁ = (w.runPhases sampleEnvironment "step" 0 [samplePhase "a" 2]).2.1 ∧
      w₁.plannedActions sampleEnvironment (samplePhase "a" 2) =
        [⟨"", 0, .apply, [⟨sampleTemplate "a", .patch⟩]⟩,
          ⟨"", 1, .apply, [⟨sampleTemplate "a", .patch⟩]⟩] ∧
      Unmoved w₁ (w₁.runPhases sampleEnvironment "step" 0 [samplePhase "a" 2]).2.1 := by
  have hl := select_samplePhase "a" 2
  have hb := identifyAll_samplePhase "a" 2
  have hne : (samplePhase "a" 2).bundle ≠ [] := by simp [samplePhase]
  obtain ⟨e₁, first, -⟩ := runPhases_goes sampleEnvironment "step"
    { cluster := { failingNames := ["a-1"] } } 0 (samplePhase "a" 2)
  obtain ⟨hplan, -, hagain⟩ := repeated_phase hl hb first.any hne
  exact ⟨hl, hb, hne, _, _, rfl, rfl, hplan, hagain "step" 0⟩

end ReplicaLoad

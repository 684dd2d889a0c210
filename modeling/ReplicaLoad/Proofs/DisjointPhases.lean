-- Phases of different groups. Phases beside each other that share no group do
-- not notice each other. Each of them keeps to the course that it would take
-- alone, no two of their operations are for one replica, and so every
-- interleaving leaves behind what the phases leave behind one after another.
import ReplicaLoad.Proofs.PhaseLanes
import ReplicaLoad.Proofs.PhaseReplicas
import Mathlib.Data.List.Flatten

namespace ReplicaLoad

def Environment.refusals (env : Environment) (p : Phase) : List RunError :=
  match env.ready p with
  | .error e => [e]
  | .ok _ => []

/-- The errors that a step has from phases of different groups that crash. -/
def Environment.crashes (env : Environment) (step : String) (s : InstanceStore)
    (phases : List Phase) : List RunError :=
  phases.zipIdx.flatMap fun (p, i) => ((env.course p s).crash.map (.crashedUnit step i)).toList

/-! ## The books of a phase -/

namespace PhaseState

/-- The errors that a phase has recorded, and that of its refusal that is to come. -/
def allErrors (env : Environment) : PhaseState → List RunError
  | .waiting p => env.refusals p
  | q => q.errors

/-- What a step does to the cluster, to the actions that are left and to the errors. -/
inductive Books (env : Environment) (c : Course) (w : World) (q : PhaseState) (w' : World)
    (q' : PhaseState) : Prop
  | same (cluster : w'.cluster = w.cluster) (actions : q'.pending c = q.pending c)
      (errors : q'.allErrors env = q.allErrors env)
  | operate {before a op rest after} (next : a.operations = op :: rest)
      (old : q.pending c = before ++ a :: after) (world : w' = (w.perform env a op).world)
      (actions : q'.pending c = before ++ ((w.perform env a op).remains a rest ++ after))
      (errors : q'.allErrors env = q.allErrors env ++ (w.perform env a op).error.toList)
  | finish {before a after} (last : a.operations = []) (old : q.pending c = before ++ a :: after)
      (cluster : w'.cluster = w.cluster) (actions : q'.pending c = before ++ after)
      (errors : q'.allErrors env = q.allErrors env)

variable {env : Environment} {own : GroupKey → Prop} {c : Course} {w w' : World}
  {q q' : PhaseState}

theorem allErrors_dispatch (load : Load) (actions : List Action)
    (commits : List (GroupKey × Instances)) :
    (dispatch load actions commits).allErrors env = [] :=
  dispatch_induction (P := (·.allErrors env = [])) rfl fun _ => rfl

/-- A phase dispatches the actions of its course. -/
theorem Step.books (h : Step env env.performs w q w' q') (hq : q.OnCourse env own c w.instances) :
    Books env c w q w' q' := by
  -- only a step that dispatches actions needs the course: before it they are pending all the same
  cases h with
  | @refuse p e h =>
    have ha : (env.course p w.instances).started = c.started := Course.Same.started hq
    simp only [Environment.course, h] at ha
    exact .same rfl ha (by simp [allErrors, errors, outcome, UnitEnd.own, Environment.refusals, h])
  | @idle p h =>
    have ha : (env.course p w.instances).started = c.started := Course.Same.started hq
    simp only [Environment.course, h] at ha
    exact .same rfl ha (by simp [allErrors, errors, outcome, UnitEnd.own, Environment.refusals, h])
  | @enrol p r h =>
    have he : (waiting p).allErrors env = [] := by simp [allErrors, Environment.refusals, h]
    rw [OnCourse, Environment.course_ready h] at hq
    unfold ReadyPhase.enrol
    split
    · rename_i hn
      rw [hn] at hq
      exact .same rfl (pending_dispatch hq) ((allErrors_dispatch _ _ _).trans he.symm)
    · exact .same rfl rfl he.symm
  | read => exact .same rfl rfl rfl
  | write => exact .same rfl rfl rfl
  | @next e h =>
    rw [OnCourse, Enrolment.course] at hq
    unfold Enrolment.next
    split
    · rename_i hl
      rw [e.finish_last _ h hl] at hq
      exact .same rfl (pending_dispatch hq) (allErrors_dispatch _ _ _)
    · exact .same rfl rfl rfl
  | operate h hdone =>
    unfold Environment.performs at hdone
    subst hdone
    exact .operate h rfl rfl rfl rfl
  | finish h => exact .finish h rfl rfl rfl rfl
  | settle => exact .same rfl rfl rfl
  | commit => exact .same rfl rfl rfl
  | leave => exact .same rfl rfl rfl

theorem owed_subset_due {key : GroupKey} (h : key ∈ q.owed) : key ∈ q.due env := by
  cases q with
  | waiting => simp [owed] at h
  | reading => exact List.mem_append_left _ h
  | writing => exact List.mem_append_left _ h
  | acting => exact h
  | committing => exact h
  | ended => simp [owed] at h

/-- A phase changes no group but those that are due. -/
theorem Step.get?_of_not_due {key : GroupKey} (h : Step env .any w q w' q')
    (hk : key ∉ q.due env) : w'.instances.get? key = w.instances.get? key := by
  refine h.get?_of_not_owed (fun ho => hk ?_) fun hc => hk ?_
  · exact h.due_iff.mpr (Or.inl (owed_subset_due ho))
  · exact h.due_iff.mpr (Or.inr hc)

end PhaseState

/-! ## Phases beside each other -/

namespace Interleaving

def allActions (env : Environment) (s : InstanceStore) (phases : List Phase) : List Action :=
  phases.flatMap fun p => (env.course p s).started

/-- The effects of phases on the replicas that they work on. -/
def allEffects (env : Environment) (w : World) (phases : List Phase) : List (ObjectKey × Effect) :=
  (allActions env w.instances phases).flatMap (env.effects w.cluster)

/-- What holds at every moment of an interleaving of phases of different groups. Each phase stands
beside its state. -/
structure Confluent (env : Environment) (w₀ : World) (beside : List (Phase × PhaseState))
    (t : Interleaving) : Prop where
  phases : t.phases = beside.map (·.2)
  onCourse : ∀ x ∈ beside, x.2.OnCourse env (· ∈ env.keysOf x.1) (env.course x.1 w₀.instances)
    t.world.instances
  due : ∀ x ∈ beside, ∀ key ∈ x.2.due env, key ∈ env.keysOf x.1
  others : ∀ key, (∀ x ∈ beside, key ∉ env.keysOf x.1) →
    t.world.instances.get? key = w₀.instances.get? key
  ledger : ∃ done, Ledger env w₀.cluster ((beside.map (·.1)).flatMap env.refusals)
    (allEffects env w₀ (beside.map (·.1))) t.world.cluster
    (beside.flatMap fun x => x.2.allErrors env)
    (beside.flatMap fun x => x.2.pending (env.course x.1 w₀.instances)) done

variable {env : Environment} {w₀ : World} {phases : List Phase} {t t' : Interleaving}

theorem confluent_start (hr : ∀ p ∈ phases, env.Regular p)
    (hd : phases.Pairwise fun p q => (env.keysOf p).Disjoint (env.keysOf q)) :
    Confluent env w₀ (phases.map fun p => (p, .waiting p)) (start w₀ phases) where
  phases := by simp [start]
  onCourse := by
    intro x hx
    obtain ⟨p, -, rfl⟩ := List.mem_map.mp hx
    exact ⟨rfl, rfl, fun _ _ => rfl, rfl⟩
  due := by
    intro x hx key hk
    obtain ⟨p, -, rfl⟩ := List.mem_map.mp hx
    exact hk
  others := fun _ _ => rfl
  ledger := by
    have hfst : (phases.map fun p => (p, PhaseState.waiting p)).map (·.1) = phases := by
      simp [Function.comp_def]
    have haddressed : ∀ a ∈ allActions env w₀.instances phases, ∀ op ∈ a.operations,
        env.Addresses a op := by
      intro a ha
      obtain ⟨p, hp, ha⟩ := List.mem_flatMap.mp ha
      exact (hr p hp).addresses w₀.instances a ((Course.started_sublist _).subset ha)
    have hnodup : ((allActions env w₀.instances phases).flatMap env.addresses).Nodup := by
      have hstarted : (allActions env w₀.instances phases).Sublist
          (phases.flatMap fun p => (env.course p w₀.instances).actions) :=
        List.Sublist.flatMap_right phases fun p _ => Course.started_sublist _
      exact (addresses_nodup w₀.instances hd hr).sublist (hstarted.flatMap _)
    refine ⟨[], ?_⟩
    rw [hfst, List.flatMap_map, List.flatMap_map]
    exact Ledger.start _ hnodup haddressed

theorem perm_insert {α : Type} (pre before some after post : List α) :
    (pre ++ ((before ++ (some ++ after)) ++ post)).Perm
      (some ++ (pre ++ ((before ++ after) ++ post))) := by
  have hmid : ((before ++ (some ++ after)) ++ post).Perm (some ++ ((before ++ after) ++ post)) := by
    rw [← List.append_assoc some]
    exact (List.perm_append_comm_assoc _ _ _).append_right _
  exact (hmid.append_left _).trans (List.perm_append_comm_assoc _ _ _)

/-- A step of one phase is entered in the books of all of them. -/
theorem Ledger.books {hist hist' : List RunError} {pre post : List Action} {c₀ : Cluster}
    {base : List RunError} {all done : List (ObjectKey × Effect)} {c : Course} {w w' : World}
    {q q' : PhaseState} (hc : env.client.returned = id)
    (h : Ledger env c₀ base all w.cluster (hist ++ (q.allErrors env ++ hist'))
      (pre ++ (q.pending c ++ post)) done)
    (hb : PhaseState.Books env c w q w' q') :
    ∃ done, Ledger env c₀ base all w'.cluster (hist ++ (q'.allErrors env ++ hist'))
      (pre ++ (q'.pending c ++ post)) done := by
  cases hb with
  | same cluster actions errors =>
    refine ⟨done, ?_⟩
    rw [cluster, actions, errors]
    exact h
  | @operate before a op rest after next old world actions errors =>
    rw [old] at h
    have hp := (h.congr (.refl _) (perm_insert pre before [a] after post).symm).perform hc next
    refine ⟨done ++ [(env.address a op, env.effect c₀ a op)], ?_⟩
    rw [world, actions, errors]
    refine hp.congr ?_ (perm_insert _ _ _ _ _)
    rw [List.append_assoc, List.append_assoc, List.append_assoc]
    exact (List.perm_append_comm.append_left _).append_left _
  | @finish before a after last old cluster actions errors =>
    rw [old] at h
    refine ⟨done, ?_⟩
    rw [cluster, actions, errors]
    exact (h.congr (.refl _) (perm_insert pre before [a] after post).symm).finish last

/-- Every step of a phase leaves the phases of other groups on their courses. -/
theorem Confluent.step (hc : env.client.returned = id) {beside : List (Phase × PhaseState)}
    (hd : (beside.map (·.1)).Pairwise fun p q => (env.keysOf p).Disjoint (env.keysOf q))
    (h : Confluent env w₀ beside t) (hs : Step env env.performs t t') :
    ∃ beside', beside'.map (·.1) = beside.map (·.1) ∧ Confluent env w₀ beside' t' := by
  obtain @⟨w, w', pre, q, q', post, cs, hq⟩ := hs
  have hphases : pre ++ q :: post = beside.map (·.2) := h.phases
  -- the phase that moves, with those before it and after it
  obtain ⟨bpre, tail, rfl, rfl, htail⟩ := List.map_eq_append_iff.mp hphases.symm
  obtain ⟨⟨p, q₁⟩, bpost, rfl, hq₁, rfl⟩ := List.map_eq_cons_iff.mp htail
  obtain rfl : q₁ = q := hq₁
  have hmem : (p, q₁) ∈ bpre ++ (p, q₁) :: bpost := by simp
  have hcourse := h.onCourse (p, q₁) hmem
  have hdue := h.due (p, q₁) hmem
  have hkeep : ∀ key, key ∉ env.keysOf p → w'.instances.get? key = w.instances.get? key :=
    fun key hk => hq.any.get?_of_not_due fun hdk => hk (hdue key hdk)
  -- the others share no group with it
  have hother : ∀ x ∈ bpre ++ bpost, ∀ key ∈ env.keysOf x.1, key ∉ env.keysOf p := by
    rw [List.map_append, List.map_cons, List.pairwise_append, List.pairwise_cons] at hd
    intro x hx key hk hkp
    rcases List.mem_append.mp hx with hx | hx
    · exact hd.2.2 x.1 (List.mem_map_of_mem hx) p List.mem_cons_self hk hkp
    · exact hd.2.1.1 x.1 (List.mem_map_of_mem hx) hkp hk
  have hsplit : ∀ x, x ∈ bpre ++ (p, q') :: bpost → x = (p, q') ∨
      (x ∈ bpre ++ bpost ∧ x ∈ bpre ++ (p, q₁) :: bpost) := by
    intro x hx
    simp only [List.mem_append, List.mem_cons] at hx ⊢
    tauto
  have hfst : (bpre ++ (p, q') :: bpost).map (·.1) = (bpre ++ (p, q₁) :: bpost).map (·.1) := by simp
  refine ⟨bpre ++ (p, q') :: bpost, hfst, ?_, ?_, ?_, ?_, ?_⟩
  · simp
  · -- the phase keeps to its own course, and the groups of the others stay as they are
    intro x hx
    rcases hsplit x hx with rfl | ⟨hx, hx'⟩
    · exact hq.any.onCourse hcourse
    · refine (h.onCourse x hx').frame (h.due x hx') fun key hk => ?_
      exact hkeep key (hother x hx key hk)
  · intro x hx key hk
    rcases hsplit x hx with rfl | ⟨-, hx'⟩
    · exact hdue key (hq.any.due_iff.mpr (Or.inl hk))
    · exact h.due x hx' key hk
  · intro key hk
    have hk' : ∀ x ∈ bpre ++ (p, q₁) :: bpost, key ∉ env.keysOf x.1 := by
      intro x hx
      have hx1 : x.1 ∈ (bpre ++ (p, q') :: bpost).map (·.1) := hfst ▸ List.mem_map_of_mem hx
      obtain ⟨y, hy, hyx⟩ := List.mem_map.mp hx1
      rw [← hyx]
      exact hk y hy
    exact (hkeep key (hk' _ hmem)).trans (h.others key hk')
  · obtain ⟨done, hl⟩ := h.ledger
    rw [List.flatMap_append, List.flatMap_cons, List.flatMap_append, List.flatMap_cons] at hl
    obtain ⟨done', hl'⟩ := Ledger.books hc hl (hq.books hcourse)
    refine ⟨done', ?_⟩
    rw [hfst, List.flatMap_append, List.flatMap_cons, List.flatMap_append, List.flatMap_cons]
    exact hl'

theorem confluent_of_reaches (hc : env.client.returned = id)
    (hd : phases.Pairwise fun p q => (env.keysOf p).Disjoint (env.keysOf q))
    (hr : ∀ p ∈ phases, env.Regular p) (h : Reaches env env.performs (start w₀ phases) t) :
    ∃ beside, beside.map (·.1) = phases ∧ Confluent env w₀ beside t := by
  induction h with
  | refl => exact ⟨_, by simp [Function.comp_def], confluent_start hr hd⟩
  | tail _ hs ih =>
    obtain ⟨beside, hb, hconf⟩ := ih
    obtain ⟨beside', hb', hconf'⟩ := hconf.step hc (by rw [hb]; exact hd) hs
    exact ⟨beside', hb'.trans hb, hconf'⟩

/-! ## What phases leave behind -/

/-- What phases of different groups leave behind: the end of the course of each of them, and the
effects of all their operations. -/
structure Outcome (env : Environment) (step : String) (w : World) (phases : List Phase)
    (w' : World) (errors : List RunError) : Prop where
  own : ∀ p ∈ phases, ∀ key ∈ env.keysOf p,
    w'.instances.get? key = (env.course p w.instances).final.get? key
  others : ∀ key, (∀ p ∈ phases, key ∉ env.keysOf p) →
    w'.instances.get? key = w.instances.get? key
  touched : ∀ x ∈ allEffects env w phases, w'.cluster.view x.1 = x.2.left
  untouched : ∀ k, k ∉ (allEffects env w phases).map (·.1) → w'.cluster.view k = w.cluster.view k
  failingNames : w'.cluster.failingNames = w.cluster.failingNames
  journal : ∃ entries, w'.cluster.journal = w.cluster.journal ++ entries ∧
    entries.Perm ((allEffects env w phases).flatMap (·.2.entry.toList))
  errors : errors.Perm
    (phases.flatMap env.refusals ++ (allEffects env w phases).flatMap (·.2.error.toList) ++
      env.crashes step w.instances phases)

/-- Every interleaving of phases of different groups leaves the same behind. -/
theorem outcome_of_reaches (hc : env.client.returned = id)
    (hd : phases.Pairwise fun p q => (env.keysOf p).Disjoint (env.keysOf q))
    (hr : ∀ p ∈ phases, env.Regular p) (h : Reaches env env.performs (start w₀ phases) t)
    (he : t.Ended) (step : String) :
    Outcome env step w₀ phases t.world (t.errors step) := by
  obtain ⟨beside, rfl, hconf⟩ := confluent_of_reaches hc hd hr h
  have hended : ∀ x ∈ beside, ∃ e, x.2 = .ended e := by
    intro x hx
    have hxe := he x.2 (by rw [hconf.phases]; exact List.mem_map_of_mem hx)
    cases hx2 : x.2 with
    | ended e => exact ⟨e, rfl⟩
    | _ =>
      rw [hx2] at hxe
      cases hxe
  -- nothing is pending any more, so that all effects have happened
  obtain ⟨done, hl⟩ := hconf.ledger
  have hpending : (beside.flatMap fun x => x.2.pending (env.course x.1 w₀.instances)) = [] := by
    refine List.flatMap_eq_nil_iff.mpr fun x hx => ?_
    obtain ⟨e, hx2⟩ := hended x hx
    rw [hx2]
    rfl
  have hown : (t.phases.map PhaseState.outcome).flatMap UnitEnd.own =
      beside.flatMap fun x => x.2.allErrors env := by
    rw [hconf.phases, List.map_map, List.flatMap_map]
    refine List.flatMap_congr fun x hx => ?_
    obtain ⟨e, hx2⟩ := hended x hx
    simp only [Function.comp_apply, hx2]
    rfl
  have hcrashes : noticedAll step (t.phases.map PhaseState.outcome) =
      env.crashes step w₀.instances (beside.map (·.1)) := by
    unfold noticedAll Environment.crashes
    rw [hconf.phases, List.map_map, List.zipIdx_map, List.flatMap_map, List.zipIdx_map,
      List.flatMap_map]
    refine List.flatMap_congr fun x hx => ?_
    have hmem := List.fst_mem_of_mem_zipIdx hx
    obtain ⟨e, hx2⟩ := hended x.1 hmem
    have hcourse := hconf.onCourse x.1 hmem
    rw [hx2] at hcourse
    simp only [Prod.map, Function.comp_apply, hx2, ← hcourse.1]
    cases e with
    | returned errors => rfl
    | crashed reason => rfl
  rw [hpending] at hl
  have hall : done.Perm (allEffects env w₀ (beside.map (·.1))) := by simpa using hl.all
  constructor
  · intro p hp key hk
    obtain ⟨x, hx, rfl⟩ := List.mem_map.mp hp
    obtain ⟨e, hx2⟩ := hended x hx
    have hcourse := hconf.onCourse x hx
    rw [hx2] at hcourse
    exact hcourse.2 key hk
  · intro key hk
    exact hconf.others key fun x hx => hk x.1 (List.mem_map_of_mem hx)
  · exact fun x hx => hl.touched x (hall.symm.subset hx)
  · exact fun k hk => hl.untouched k fun hm => hk ((hall.map _).subset hm)
  · exact hl.failingNames
  · exact ⟨_, hl.journal, hall.flatMap_right _⟩
  · refine (united_perm step _).trans ?_
    rw [hown, hcrashes]
    exact (hl.errors.trans ((hall.flatMap_right _).append_left _)).append_right _

/-- Two runs that cannot be told apart afterwards, but for the order of their calls and of their
errors and for the versions of the objects. -/
structure Alike (w w' : World) (errors errors' : List RunError) : Prop where
  instances : ∀ key, w.instances.get? key = w'.instances.get? key
  objects : ∀ k, w.cluster.view k = w'.cluster.view k
  journal : w.cluster.journal.Perm w'.cluster.journal
  errors : errors.Perm errors'

theorem Outcome.alike {step : String} {w w' : World} {errors errors' : List RunError}
    (h : Outcome env step w₀ phases w errors) (h' : Outcome env step w₀ phases w' errors') :
    Alike w w' errors errors' where
  instances := by
    intro key
    by_cases hk : ∃ p ∈ phases, key ∈ env.keysOf p
    · obtain ⟨p, hp, hkp⟩ := hk
      rw [h.own p hp key hkp, h'.own p hp key hkp]
    · have hnone : ∀ p ∈ phases, key ∉ env.keysOf p := fun p hp hkp => hk ⟨p, hp, hkp⟩
      rw [h.others key hnone, h'.others key hnone]
  objects := by
    intro k
    by_cases hk : k ∈ (allEffects env w₀ phases).map (·.1)
    · obtain ⟨x, hx, rfl⟩ := List.mem_map.mp hk
      rw [h.touched x hx, h'.touched x hx]
    · rw [h.untouched k hk, h'.untouched k hk]
  journal := by
    obtain ⟨entries, he, hp⟩ := h.journal
    obtain ⟨entries', he', hp'⟩ := h'.journal
    rw [he, he']
    exact (hp.trans hp'.symm).append_left _
  errors := h.errors.trans h'.errors.symm

/-- Phases that share no group leave the same behind in every interleaving, and on every timeline,
as one after another. -/
theorem disjoint_phases_commute (hc : env.client.returned = id)
    (hd : phases.Pairwise fun p q => (env.keysOf p).Disjoint (env.keysOf q))
    (hr : ∀ p ∈ phases, env.Regular p) (step : String) (w : World) :
    (∀ t, Reaches env env.performs (start w phases) t → t.Ended →
      Alike t.world (w.runInOrder env step phases).2 (t.errors step)
        (w.runInOrder env step phases).1) ∧
    ∀ now, Alike (w.runPhases env step now phases).2.1 (w.runInOrder env step phases).2
      (w.runPhases env step now phases).1.errors (w.runInOrder env step phases).1 := by
  obtain ⟨u, hu, hue, huw, huerr⟩ := runInOrder_reached env step w phases
  have hin := outcome_of_reaches hc hd hr hu hue step
  rw [huw, huerr] at hin
  refine ⟨fun t ht hte => (outcome_of_reaches hc hd hr ht hte step).alike hin, fun now => ?_⟩
  obtain ⟨t, ht, hte, htw, hterr⟩ := runPhases_reached env step w now phases
  have hout := (outcome_of_reaches hc hd hr ht hte step).alike hin
  rw [htw] at hout
  exact { hout with errors := hterr.trans hout.errors }

/-- Two phases of the sample beside each other. -/
theorem disjoint_phases_commute_samplePhase :
    sampleEnvironment.client.returned = id ∧
    [samplePhase "a" 2, samplePhase "b" 1].Pairwise (fun p q =>
      (sampleEnvironment.keysOf p).Disjoint (sampleEnvironment.keysOf q)) ∧
    (∀ p ∈ [samplePhase "a" 2, samplePhase "b" 1], sampleEnvironment.Regular p) ∧
    Alike
      (({} : World).runPhases sampleEnvironment "step" 0
        [samplePhase "a" 2, samplePhase "b" 1]).2.1
      (({} : World).runInOrder sampleEnvironment "step" [samplePhase "a" 2, samplePhase "b" 1]).2
      (({} : World).runPhases sampleEnvironment "step" 0
        [samplePhase "a" 2, samplePhase "b" 1]).1.errors
      (({} : World).runInOrder sampleEnvironment "step"
        [samplePhase "a" 2, samplePhase "b" 1]).1 := by
  have hc : sampleEnvironment.client.returned = id := rfl
  have hd : [samplePhase "a" 2, samplePhase "b" 1].Pairwise (fun p q =>
      (sampleEnvironment.keysOf p).Disjoint (sampleEnvironment.keysOf q)) := by
    simp [keysOf_samplePhase]
  have hr : ∀ p ∈ [samplePhase "a" 2, samplePhase "b" 1], sampleEnvironment.Regular p := by
    simp [regular_samplePhase]
  exact ⟨hc, hd, hr, (disjoint_phases_commute hc hd hr "step" {}).2 0⟩

end Interleaving

end ReplicaLoad

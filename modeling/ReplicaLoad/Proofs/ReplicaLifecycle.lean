-- The lifecycle of a replica. Which operations phases plan for one replica, one
-- phase after another. Whatever becomes of the operations, the plans follow the
-- counts, and the counts follow the phases: a replica is created, then patched
-- any number of times, then deleted, and so on.
import ReplicaLoad.Proofs.ReplicaTracking
import Mathlib.Computability.Language

namespace ReplicaLoad

variable {env : Environment} {key : GroupKey} {i : Nat}

/-! ## The planned operations of a replica -/

/-- The operations that a plan has for a replica, in their order. -/
def Environment.operationsOn (env : Environment) (plan : List Action) (key : GroupKey) (i : Nat) :
    List Operation :=
  plan.flatMap fun a =>
    (a.operations.filter fun op => ((a.ns, env.group op.object), a.index) = (key, i)).map
      (·.operation)

theorem Environment.operationsOn_append (plan plan' : List Action) :
    env.operationsOn (plan ++ plan') key i =
      env.operationsOn plan key i ++ env.operationsOn plan' key i := by
  simp [Environment.operationsOn]

theorem Environment.mem_operationsOn {plan : List Action} {o : Operation} :
    o ∈ env.operationsOn plan key i ↔ ∃ a ∈ plan, ∃ op ∈ a.operations,
      ((a.ns, env.group op.object), a.index) = (key, i) ∧ op.operation = o := by
  simp [Environment.operationsOn, and_assoc]

/-- A plan has an operation for a replica wherever it works on the replica. -/
theorem Environment.length_operationsOn (plan : List Action) :
    (env.operationsOn plan key i).length = (plan.flatMap env.replicas).count (key, i) := by
  induction plan with
  | nil => rfl
  | cons a rest ih =>
    change (_ ++ env.operationsOn rest key i).length = _
    rw [List.length_append, ih, List.flatMap_cons, List.count_append, List.length_map,
      ← List.countP_eq_length_filter, Environment.replicas, List.count, List.countP_map]
    congr 1
    exact List.countP_congr fun op _ => by simp

theorem eq_toList_of_mem_iff {α : Type} {as : List α} {a? : Option α} (hl : as.length ≤ 1)
    (h : ∀ a, a ∈ as ↔ a? = some a) : as = a?.toList := by
  match as, hl with
  | [], _ =>
    cases a? with
    | none => rfl
    | some a => exact absurd ((h a).mpr rfl) (by simp)
  | [a], _ =>
    rw [(h a).mp List.mem_cons_self]
    rfl

/-- A phase plans for a replica what the counts ask for, and nothing for replicas of other groups. -/
theorem operationsOn_course {p : Phase} (s : InstanceStore)
    (hd : ∀ bundle, env.identifyAll p.bundle = .ok bundle → (bundle.map (·.2)).Nodup) :
    env.operationsOn (env.course p s).actions key i =
      if key ∈ env.keysOf p then (plannedFor (s.count key) p.replicas.toNat i).toList else [] := by
  have hlength : (env.operationsOn (env.course p s).actions key i).length ≤ 1 := by
    rw [Environment.length_operationsOn]
    exact List.nodup_iff_count_le_one.mp (course_replicas_nodup s hd) _
  have hmem : ∀ o, o ∈ env.operationsOn (env.course p s).actions key i ↔
      key ∈ env.keysOf p ∧ plannedFor (s.count key) p.replicas.toNat i = some o := by
    intro o
    rw [Environment.mem_operationsOn]
    constructor
    · rintro ⟨a, ha, op, hop, hreplica, rfl⟩
      obtain ⟨g, hid, -, hk, hp⟩ := course_operation ha hop
      rw [group_of_identify hid] at hreplica
      cases hreplica
      exact ⟨hk, hp⟩
    · rintro ⟨hk, hp⟩
      obtain ⟨a, ha, op, hop, ho, haddr⟩ := exists_course_operation hk hp
      obtain ⟨hkey, hi⟩ := replicaKey_inj haddr
      exact ⟨a, ha, op, hop, Prod.ext hkey hi, ho⟩
  split
  · rename_i hk
    exact eq_toList_of_mem_iff hlength fun o => by rw [hmem, and_iff_right hk]
  · rename_i hk
    exact List.eq_nil_iff_forall_not_mem.mpr fun o ho => hk ((hmem o).mp ho).1

/-! ## Lifecycles -/

/-- The operations on a replica from when it is created to when it is deleted. -/
def oneLife : Language Operation :=
  ({[.create]} : Language Operation) * KStar.kstar ({[.patch]} : Language Operation) * {[.delete]}

/-- Operations on a replica that is there after them, or is not. -/
inductive Lives : Bool → List Operation → Prop
  | unborn : Lives false []
  | create {ops} (h : Lives false ops) : Lives true (ops ++ [.create])
  | patch {ops} (h : Lives true ops) : Lives true (ops ++ [.patch])
  | delete {ops} (h : Lives true ops) : Lives false (ops ++ [.delete])

/-- A replica is there when the last operation on it is no delete. -/
theorem Lives.alive_iff {alive : Bool} {ops : List Operation} (h : Lives alive ops) :
    alive = true ↔ ops.getLast? = some .create ∨ ops.getLast? = some .patch := by
  cases h <;> simp

theorem patches_mem (n : Nat) :
    List.replicate n Operation.patch ∈ KStar.kstar ({[.patch]} : Language Operation) := by
  rw [Language.mem_kstar]
  refine ⟨List.replicate n [.patch], by simp, fun y hy => ?_⟩
  rw [List.eq_of_mem_replicate hy]
  rfl

theorem oneLife_mem (n : Nat) :
    .create :: List.replicate n Operation.patch ++ [.delete] ∈ oneLife := by
  refine Language.mem_mul.mpr ⟨[.create] ++ List.replicate n .patch, ?_, [.delete], rfl, rfl⟩
  exact Language.append_mem_mul rfl (patches_mem n)

/-- Another life after whole lives. -/
theorem lives_append {past : List Operation} (h : past ∈ KStar.kstar oneLife) (n : Nat) :
    past ++ (.create :: List.replicate n .patch ++ [.delete]) ∈ KStar.kstar oneLife := by
  have hle : KStar.kstar oneLife * oneLife ≤ KStar.kstar oneLife := kstar_mul_le_kstar
  exact hle (Language.append_mem_mul h (oneLife_mem n))

/-- What has happened to a replica are whole lives, and a life that has begun if it is there. -/
theorem Lives.lives {alive : Bool} {ops : List Operation} (h : Lives alive ops) :
    ∃ past ∈ KStar.kstar oneLife, (alive = false ∧ ops = past) ∨
      (alive = true ∧ ∃ n, ops = past ++ .create :: List.replicate n .patch) := by
  induction h with
  | unborn => exact ⟨[], Language.nil_mem_kstar _, .inl ⟨rfl, rfl⟩⟩
  | create _ ih =>
    obtain ⟨past, hpast, ⟨-, rfl⟩ | ⟨⟨⟩, -⟩⟩ := ih
    exact ⟨_, hpast, .inr ⟨rfl, 0, rfl⟩⟩
  | patch _ ih =>
    obtain ⟨past, hpast, ⟨⟨⟩, -⟩ | ⟨-, n, rfl⟩⟩ := ih
    refine ⟨past, hpast, .inr ⟨rfl, n + 1, ?_⟩⟩
    rw [List.append_assoc, List.cons_append, List.replicate_succ']
  | delete _ ih =>
    obtain ⟨past, hpast, ⟨⟨⟩, -⟩ | ⟨-, n, rfl⟩⟩ := ih
    refine ⟨_, ?_, .inl ⟨rfl, rfl⟩⟩
    rw [List.append_assoc]
    exact lives_append hpast n

/-- What has happened to a replica is the beginning of whole lives. -/
theorem Lives.isPrefix {alive : Bool} {ops : List Operation} (h : Lives alive ops) :
    ∃ lives ∈ KStar.kstar oneLife, ops <+: lives := by
  obtain ⟨past, hpast, ⟨-, rfl⟩ | ⟨-, n, rfl⟩⟩ := h.lives
  · exact ⟨_, hpast, List.prefix_rfl⟩
  · refine ⟨_, lives_append hpast n, ?_⟩
    rw [← List.append_assoc]
    exact List.prefix_append _ _

/-- What a plan does to a replica fits whether it was there, and whether it is wanted. -/
theorem Lives.planned {current target : Nat} {ops : List Operation}
    (h : Lives (decide (i < current)) ops) :
    Lives (decide (i < target)) (ops ++ (plannedFor current target i).toList) := by
  cases hp : plannedFor current target i with
  | none =>
    rw [Option.toList_none, List.append_nil, decide_eq_decide.mpr (lt_iff_of_plannedFor hp)]
    exact h
  | some o =>
    have hcurrent := lt_current_of_plannedFor hp
    have htarget := lt_target_of_plannedFor hp
    cases o with
    | create =>
      rw [decide_eq_false (by simpa using hcurrent)] at h
      rw [decide_eq_true (by simpa using htarget)]
      exact h.create
    | patch =>
      rw [decide_eq_true (by simpa using hcurrent)] at h
      rw [decide_eq_true (by simpa using htarget)]
      exact h.patch
    | delete =>
      rw [decide_eq_true (by simpa using hcurrent)] at h
      rw [decide_eq_false (by simpa using htarget)]
      exact h.delete

/-! ## Phases one after another -/

/-- The plans of phases one after another, whatever their operations do, and the world after them. -/
inductive Plans (env : Environment) : World → List Phase → List (List Action) → World → Prop
  | nil {w : World} : Plans env w [] [] w
  | cons {w w' last : World} {p : Phase} {e phases plans}
      (first : PhaseState.Goes env .any (w, .waiting p) (w', .ended e))
      (rest : Plans env w' phases plans last) :
      Plans env w (p :: phases) (w.plannedActions env p :: plans) last

variable {w w' : World} {phases : List Phase}

/-- A replica goes on with its life through phases one after another. -/
theorem Plans.lives {plans : List (List Action)} (h : Plans env w phases plans w')
    (hd : ∀ p ∈ phases, ∀ bundle, env.identifyAll p.bundle = .ok bundle →
      (bundle.map (·.2)).Nodup) {before : List Operation}
    (hb : Lives (decide (i < w.instances.count key)) before) :
    Lives (decide (i < w'.instances.count key))
      (before ++ env.operationsOn plans.flatten key i) := by
  induction h generalizing before with
  | nil =>
    rw [List.flatten_nil, Environment.operationsOn, List.flatMap_nil, List.append_nil]
    exact hb
  | @cons w w₁ w₂ p e phases plans first rest ih =>
    rw [List.flatten_cons, Environment.operationsOn_append, ← List.append_assoc,
      World.plannedActions_eq, operationsOn_course _ (hd p List.mem_cons_self)]
    refine ih (fun q hq => hd q (List.mem_cons_of_mem _ hq)) ?_
    rw [first.count_ended key]
    split
    · exact hb.planned
    · rw [List.append_nil]
      exact hb

/-- The plans of phases that are run one after another from a time on. -/
def World.planEach (env : Environment) (step : String) (now : Millis) (w : World)
    (phases : List Phase) : List (List Action) :=
  List.zipWith (fun w p => w.plannedActions env p)
    (w :: (w.runEach env step now phases).map (·.2)) phases

/-- The world after phases that are run one after another from a time on. -/
def World.afterEach (env : Environment) (step : String) (now : Millis) (w : World)
    (phases : List Phase) : World :=
  ((w.runEach env step now phases).map (·.2)).getLastD w

/-- Phases that have been run one after another have planned in the worlds between them. -/
theorem Successive.toPlans {step : String} {outcomes : List (List RunError × World)}
    (h : Successive env step w phases outcomes) :
    Plans env w phases
      (List.zipWith (fun w p => w.plannedActions env p) (w :: outcomes.map (·.2)) phases)
      ((outcomes.map (·.2)).getLastD w) := by
  induction h with
  | nil => exact .nil
  | cons first _ _ ih =>
    rw [List.map_cons, List.zipWith_cons_cons, List.getLastD_cons]
    exact .cons first.any ih

/-- The operations that plans have for a replica are the beginning of whole lives, and they leave it
there exactly when it is counted. -/
structure PlannedLives (env : Environment) (plans : List (List Action)) (s : InstanceStore)
    (key : GroupKey) (i : Nat) : Prop where
  begun : ∃ lives ∈ KStar.kstar oneLife, env.operationsOn plans.flatten key i <+: lives
  alive : (env.operationsOn plans.flatten key i).getLast? = some .create ∨
    (env.operationsOn plans.flatten key i).getLast? = some .patch ↔ i < s.count key

/-- Phases one after another, from a store that counts nothing, plan whole lives for every replica,
whatever becomes of their operations. -/
theorem planned_lives (hw : w.instances = Table.empty)
    (hd : ∀ p ∈ phases, ∀ bundle, env.identifyAll p.bundle = .ok bundle →
      (bundle.map (·.2)).Nodup) (key : GroupKey) (i : Nat) :
    (∀ plans w', Plans env w phases plans w' → PlannedLives env plans w'.instances key i) ∧
    ∀ step now, PlannedLives env (w.planEach env step now phases)
      (w.afterEach env step now phases).instances key i := by
  have hall : ∀ plans w', Plans env w phases plans w' →
      PlannedLives env plans w'.instances key i := by
    intro plans w' h
    have hunborn : Lives (decide (i < w.instances.count key)) [] := by
      rw [hw]
      exact .unborn
    have hlives := h.lives hd hunborn
    rw [List.nil_append] at hlives
    exact ⟨hlives.isPrefix, by rw [← hlives.alive_iff, decide_eq_true_iff]⟩
  exact ⟨hall, fun step now => hall _ _ (runEach_successive env step now w phases).toPlans⟩

/-- Phases of the sample that create a replica, patch it and delete it again. -/
theorem planned_lives_samplePhase :
    let phases := [samplePhase "a" 1, samplePhase "a" 1, samplePhase "a" 0]
    let plans := ({} : World).planEach sampleEnvironment "step" 0 phases
    ({} : World).instances = Table.empty ∧
    (∀ p ∈ phases, ∀ bundle,
      sampleEnvironment.identifyAll p.bundle = .ok bundle → (bundle.map (·.2)).Nodup) ∧
    PlannedLives sampleEnvironment plans
      (({} : World).afterEach sampleEnvironment "step" 0 phases).instances
      ("", ⟨"a", "A", ""⟩) 0 ∧
    sampleEnvironment.operationsOn plans.flatten ("", ⟨"a", "A", ""⟩) 0 =
      [.create, .patch, .delete] := by
  intro phases plans
  have hd : ∀ p ∈ phases, ∀ bundle,
      sampleEnvironment.identifyAll p.bundle = .ok bundle → (bundle.map (·.2)).Nodup := by
    intro p hp
    have hregular : sampleEnvironment.Regular p := by
      simp only [phases, List.mem_cons, List.not_mem_nil, or_false] at hp
      rcases hp with rfl | rfl | rfl <;> exact regular_samplePhase _ _
    exact hregular.distinct
  exact ⟨rfl, hd, (planned_lives rfl hd _ _).2 "step" 0, by decide +kernel⟩

end ReplicaLoad

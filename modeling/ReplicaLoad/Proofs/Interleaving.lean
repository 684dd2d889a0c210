-- Interleavings of phases. Phases beside each other, one small step at a time.
-- A phase reads the counts of a group and enters what it wants in two steps of
-- their own; its actions take their operations in any order between them, with
-- the outcomes that the run gives them or with any; and every group is
-- committed in a step of its own. Whichever phase and action can move may move
-- next, so that a statement about everything that can be reached is one about
-- every interleaving.
import ReplicaLoad.Proofs.TemplateHeads
import ReplicaLoad.Proofs.WantedCounts
import Mathlib.Data.List.Perm.Basic
import Mathlib.Logic.Relation

namespace ReplicaLoad

/-! ## One entry of a list -/

theorem getElem?_middle {α : Type} (before after : List α) (a : α) :
    (before ++ a :: after)[before.length]? = some a := by
  simp

/-- Lists that differ in one entry alone. -/
theorem getElem?_of_ne {α : Type} {before after : List α} (a a' : α) {i : Nat}
    (h : i ≠ before.length) : (before ++ a' :: after)[i]? = (before ++ a :: after)[i]? := by
  by_cases hlt : i < before.length
  · rw [List.getElem?_append_left hlt, List.getElem?_append_left hlt]
  · rw [List.getElem?_append_right (by omega), List.getElem?_append_right (by omega)]
    obtain ⟨n, hn⟩ : ∃ n, i - before.length = n + 1 := ⟨i - before.length - 1, by omega⟩
    rw [hn, List.getElem?_cons_succ, List.getElem?_cons_succ]

theorem exists_split_of_getElem? {α : Type} {as : List α} {i : Nat} {a : α}
    (h : as[i]? = some a) : ∃ before after, as = before ++ a :: after ∧ before.length = i := by
  obtain ⟨hi, rfl⟩ := List.getElem?_eq_some_iff.mp h
  exact ⟨as.take i, as.drop (i + 1), by simp, by simp; omega⟩

/-- A list that is made entry by entry, when one entry has more to give. -/
theorem flatMap_zipIdx_perm {α β : Type} {f : α × Nat → List β} {before after : List α} {a a' : α}
    {more : List β} (h : f (a', before.length) = f (a, before.length) ++ more) :
    ((before ++ a :: after).zipIdx.flatMap f ++ more).Perm
      ((before ++ a' :: after).zipIdx.flatMap f) := by
  rw [List.zipIdx_append, List.zipIdx_append, List.flatMap_append, List.flatMap_append,
    List.zipIdx_cons, List.zipIdx_cons, List.flatMap_cons, List.flatMap_cons, Nat.zero_add, h,
    List.append_assoc, List.append_assoc, List.append_assoc]
  exact (List.perm_append_comm.append_left _).append_left _

/-! ## One operation -/

structure Performed where
  error : Option RunError
  /-- Whether the action goes on after it. -/
  goesOn : Bool
  world : World

def World.perform (w : World) (env : Environment) (a : Action) (op : ObjectOperation) : Performed :=
  match env.request op.object a.index op.operation with
  | .error e => ⟨some e, PhaseRun.goesOn a false, w⟩
  | .ok r =>
    let name := op.object.objectName a.index
    match env.client.crash? name with
    | some reason => ⟨some (PhaseRun.crashed a reason), false, w⟩
    | none => match w.send env.client a.ns name r with
      | (none, w) => ⟨none, true, w⟩
      | (some e, w) => ⟨some e, PhaseRun.goesOn a false, w⟩

/-- An operation whose request cannot be made and one whose client crashes end before the cluster is
reached; any other one sends its request. -/
theorem World.perform_cases (w : World) (env : Environment) (a : Action) (op : ObjectOperation) :
    (∃ e, env.request op.object a.index op.operation = .error e ∧
      (w.perform env a op).error = some e ∧ (w.perform env a op).world = w) ∨
    (∃ r reason, env.request op.object a.index op.operation = .ok r ∧
      env.client.crash? (op.object.objectName a.index) = some reason ∧
      (w.perform env a op).error = some (PhaseRun.crashed a reason) ∧
      (w.perform env a op).world = w) ∨
    ∃ r, env.request op.object a.index op.operation = .ok r ∧
      env.client.crash? (op.object.objectName a.index) = none ∧
      (w.perform env a op).error =
        (w.send env.client a.ns (op.object.objectName a.index) r).1 ∧
      (w.perform env a op).world =
        (w.send env.client a.ns (op.object.objectName a.index) r).2 := by
  unfold World.perform
  cases hr : env.request op.object a.index op.operation with
  | error e => exact .inl ⟨e, rfl, rfl, rfl⟩
  | ok r =>
    dsimp only
    cases hc : env.client.crash? (op.object.objectName a.index) with
    | some reason => exact .inr (.inl ⟨r, reason, rfl, rfl, rfl, rfl⟩)
    | none =>
      refine .inr (.inr ⟨r, rfl, rfl, ?_⟩)
      rcases w.send env.client a.ns (op.object.objectName a.index) r with ⟨_ | e, w'⟩
      · exact ⟨rfl, rfl⟩
      · exact ⟨rfl, rfl⟩

/-- What is left of an action after an operation: the rest of its operations, if it goes on. -/
def Performed.remains (done : Performed) (a : Action) (rest : List ObjectOperation) : List Action :=
  if done.goesOn then [{ a with operations := rest }] else []

theorem World.record_frame (w : World) (ns name : String) (o : Object) :
    ∃ versions, (w.record ns name o).2 = { w with versions } := by
  unfold World.record
  split
  · exact ⟨_, rfl⟩
  · exact ⟨w.versions, rfl⟩

/-- A request changes the cluster and the versions alone. -/
theorem World.send_frame (w : World) (client : Client) (ns name : String) (r : Request) :
    ∃ cluster versions, (w.send client ns name r).2 = { w with cluster, versions } := by
  unfold World.send
  cases r with
  | create o =>
    dsimp only
    split
    · next stored cluster _ => exact ⟨cluster, World.record_frame _ ns name (client.returned stored)⟩
    · next cluster _ => exact ⟨cluster, w.versions, rfl⟩
  | patch o =>
    dsimp only
    split
    · next stored cluster _ => exact ⟨cluster, World.record_frame _ ns name (client.returned stored)⟩
    · next cluster _ => exact ⟨cluster, w.versions, rfl⟩
  | delete gvk =>
    dsimp only
    split
    · next cluster _ => exact ⟨cluster, w.versions, rfl⟩
    · next cluster _ => exact ⟨cluster, w.versions, rfl⟩

theorem World.perform_frame (w : World) (env : Environment) (a : Action) (op : ObjectOperation) :
    ∃ cluster versions, (w.perform env a op).world = { w with cluster, versions } := by
  rcases w.perform_cases env a op with ⟨_, -, -, hw⟩ | ⟨_, _, -, -, -, hw⟩ | ⟨r, -, -, -, hw⟩
  · exact ⟨w.cluster, w.versions, hw⟩
  · exact ⟨w.cluster, w.versions, hw⟩
  · rw [hw]
    exact w.send_frame env.client a.ns (op.object.objectName a.index) r

/-- An operation leaves the counts as they are. -/
@[simp] theorem World.instances_perform (w : World) (env : Environment) (a : Action)
    (op : ObjectOperation) : (w.perform env a op).world.instances = w.instances := by
  obtain ⟨_, _, h⟩ := w.perform_frame env a op
  rw [h]

/-- The outcomes that an operation of an action can have in a world. -/
abbrev Outcomes := World → Action → ObjectOperation → Performed → Prop

/-- The outcomes that a run gives operations. -/
def Environment.performs (env : Environment) : Outcomes :=
  fun w a op done => done = w.perform env a op

/-- Any outcome: an operation succeeds, fails or crashes, and does whatever it likes to the cluster.
It has no way to the counts. -/
def Outcomes.any : Outcomes := fun w _ _ done => done.world.instances = w.instances

theorem Environment.performs_any {env : Environment} {w : World} {a : Action} {op : ObjectOperation}
    {done : Performed} (h : env.performs w a op done) : Outcomes.any w a op done := by
  unfold Environment.performs at h
  rw [h]
  exact World.instances_perform w env a op

/-! ## How a unit of a step ends -/

/-- How a unit ends: with errors, if any, or with the text of a crash. -/
inductive UnitEnd where
  | returned (errors : List RunError)
  | crashed (reason : String)
  deriving DecidableEq

namespace UnitEnd

/-- The errors that a unit itself records. -/
def own : UnitEnd → List RunError
  | .returned errors => errors
  | .crashed _ => []

def crash? : UnitEnd → Option String
  | .returned _ => none
  | .crashed reason => some reason

/-- The errors that a step records when it has waited for a unit. -/
def noticed (step : String) (index : Nat) : UnitEnd → List RunError
  | .returned _ => []
  | .crashed reason => [.crashedUnit step index reason]

/-- The errors that a step has from a unit. -/
def errors (step : String) (index : Nat) : UnitEnd → List RunError
  | .returned errors => errors
  | .crashed reason => [.crashedUnit step index reason]

theorem own_append_noticed (step : String) (index : Nat) (e : UnitEnd) :
    e.own ++ e.noticed step index = e.errors step index := by
  cases e with
  | returned errors => exact List.append_nil errors
  | crashed reason => rfl

theorem mem_errors {step : String} {index : Nat} {e : UnitEnd} {problem : RunError}
    (h : problem ∈ e.errors step index) :
    problem ∈ e.own ∨ ∃ reason, problem = .crashedUnit step index reason := by
  cases e with
  | returned errors => exact .inl h
  | crashed reason => exact .inr ⟨reason, List.mem_singleton.mp h⟩

end UnitEnd

/-- The errors that a step has from all its units. -/
def united (step : String) (ends : List UnitEnd) : List RunError :=
  ends.zipIdx.flatMap fun (e, i) => e.errors step i

theorem united_map {α : Type} (step : String) (f : α → UnitEnd) (as : List α) :
    united step (as.map f) = as.zipIdx.flatMap fun (a, i) => (f a).errors step i := by
  unfold united
  rw [List.zipIdx_map, List.flatMap_map]
  rfl

/-- The errors that a step records when it has waited for all its units. -/
def noticedAll (step : String) (ends : List UnitEnd) : List RunError :=
  ends.zipIdx.flatMap fun (e, i) => e.noticed step i

/-- A step has the errors that its units record, and those that it records of them. -/
theorem united_perm (step : String) (ends : List UnitEnd) :
    (united step ends).Perm (ends.flatMap UnitEnd.own ++ noticedAll step ends) := by
  have hown : ends.flatMap UnitEnd.own = ends.zipIdx.flatMap fun (e, _) => e.own := by
    conv_lhs => rw [← List.zipIdx_map_fst 0 ends, List.flatMap_map]
  rw [hown]
  refine List.Perm.trans (List.Perm.of_eq ?_) (List.flatMap_append_perm _ _ _).symm
  exact List.flatMap_congr fun (e, i) _ => (e.own_append_noticed step i).symm

/-! ## Loads that cannot start -/

/-- The crash of a load that cannot start a number of actions, whatever is drawn. -/
def Load.crash? (load : Load) (count : Nat) : Option String :=
  if (load.pacing (fun _ => 0) count).isSome then none else some Load.divisionCrash

theorem Load.isSome_pacing (load : Load) (draws draws' : Draws) (count : Nat) :
    (load.pacing draws count).isSome = (load.pacing draws' count).isSome := by
  cases load <;> simp only [pacing, Option.isSome_some]

theorem Load.crash?_of_some {load : Load} {draws : Draws} {count : Nat} {pacing : Pacing}
    (h : load.pacing draws count = some pacing) : load.crash? count = none := by
  unfold Load.crash?
  rw [load.isSome_pacing _ draws, h]
  rfl

theorem Load.crash?_of_none {load : Load} {draws : Draws} {count : Nat}
    (h : load.pacing draws count = none) : load.crash? count = some Load.divisionCrash := by
  unfold Load.crash?
  rw [load.isSome_pacing _ draws, h]
  rfl

/-- Only a time limit cannot be shared by some numbers of actions: by those with 32 zeros as their
last bits. -/
theorem Load.crash?_eq_none_iff (load : Load) (count : Nat) :
    load.crash? count = none ↔
      ∀ limit, load = .timeLimited limit → count % twoTo 32 = 0 → count = 0 := by
  cases load with
  | timeLimited limit =>
    unfold crash? pacing spreadInterval?
    by_cases hzero : count = 0
    · simp [hzero]
    · by_cases hbits : count % twoTo 32 = 0
      · simp [hzero, hbits]
      · simp [hzero, hbits]
  | _ => simp [crash?, pacing]

/-! ## One phase -/

/-- A phase that is entering its wanted counts: the namespace that it is at, what it has entered
there, and what it has planned for the namespaces before. -/
structure Enrolment where
  load : Load
  target : Nat
  bundle : List (ObjectTemplate × ReplicaGroup)
  ns : String
  /-- The entries of the bundle that are left in the namespace. -/
  left : List (ObjectTemplate × ReplicaGroup)
  /-- The namespaces that are left after it. -/
  later : List String
  aimed : List (ObjectTemplate × GroupKey × Instances) := []
  actions : List Action := []
  commits : List (GroupKey × Instances) := []

namespace Enrolment

/-- The actions that are planned with the namespace that the phase is at. -/
def planned (e : Enrolment) : List Action :=
  e.actions ++ planNamespace e.ns (e.aimed.map fun (o, _, counts) => (o, counts.current)) e.target

def entered (e : Enrolment) : List (GroupKey × Instances) :=
  e.commits ++ e.aimed.map fun (_, key, counts) => (key, counts)

def add (e : Enrolment) (o : ObjectTemplate) (key : GroupKey) (counts : Instances) : Enrolment :=
  { e with aimed := e.aimed ++ [(o, key, counts)] }

end Enrolment

/-- What a phase has still to do. -/
inductive PhaseState where
  | waiting (p : Phase)
  | reading (e : Enrolment)
  /-- The counts of a group have been read and are entered next. -/
  | writing (e : Enrolment) (o : ObjectTemplate) (key : GroupKey) (counts : Instances)
  /-- The actions have been dispatched; each of them holds the operations that it has left. -/
  | acting (errors : List RunError) (actions : List Action) (commits : List (GroupKey × Instances))
  /-- The counts are committed, and then the phase ends. -/
  | committing (e : UnitEnd) (commits : List (GroupKey × Instances))
  | ended (e : UnitEnd)

/-- The dispatch of actions. A tuning set that cannot start them crashes. -/
def PhaseState.dispatch (load : Load) (actions : List Action)
    (commits : List (GroupKey × Instances)) : PhaseState :=
  match load.crash? actions.length with
  | none => .acting [] actions commits
  | some reason => .committing (.crashed reason) commits

theorem PhaseState.dispatch_induction {P : PhaseState → Prop} {load : Load}
    {actions : List Action} {commits : List (GroupKey × Instances)}
    (acting : P (.acting [] actions commits))
    (crashed : ∀ reason, P (.committing (.crashed reason) commits)) :
    P (dispatch load actions commits) := by
  unfold dispatch
  cases load.crash? actions.length with
  | none => exact acting
  | some reason => exact crashed reason

/-- The next namespace of a phase, or the dispatch of its actions. -/
def Enrolment.next (e : Enrolment) : PhaseState :=
  match e.later with
  | [] => .dispatch e.load e.planned e.entered
  | ns :: later =>
    .reading { e with
      ns, later, left := e.bundle, aimed := [], actions := e.planned, commits := e.entered }

def ReadyPhase.enrol (r : ReadyPhase) : PhaseState :=
  match r.namespaces with
  | [] => .dispatch r.load [] []
  | ns :: later =>
    .reading { load := r.load, target := r.target, bundle := r.bundle, ns, left := r.bundle, later }

namespace PhaseState

/-- The steps that a phase can take, with the world before and after each. Any action of a phase can
take the next step. -/
inductive Step (env : Environment) (may : Outcomes) : World → PhaseState → World → PhaseState → Prop
  | refuse {w p e} (h : env.ready p = .error e) :
      Step env may w (.waiting p) w (.ended (.returned [e]))
  | idle {w p} (h : env.ready p = .ok none) :
      Step env may w (.waiting p) w (.ended (.returned []))
  | enrol {w p r} (h : env.ready p = .ok (some r)) : Step env may w (.waiting p) w r.enrol
  | read {w e o g left} (h : e.left = (o, g) :: left) :
      Step env may w (.reading e)
        w (.writing { e with left } o (e.ns, g) (w.instances.aim (e.ns, g) o e.target))
  | write {w e o key counts} :
      Step env may w (.writing e o key counts)
        { w with instances := w.instances.put key counts } (.reading (e.add o key counts))
  | next {w e} (h : e.left = []) : Step env may w (.reading e) w e.next
  | operate {w errors before a op rest after commits done} (h : a.operations = op :: rest)
      (hdone : may w a op done) :
      Step env may w (.acting errors (before ++ a :: after) commits)
        done.world (.acting (errors ++ done.error.toList)
          (before ++ (done.remains a rest ++ after)) commits)
  | finish {w errors before a after commits} (h : a.operations = []) :
      Step env may w (.acting errors (before ++ a :: after) commits)
        w (.acting errors (before ++ after) commits)
  | settle {w errors commits} :
      Step env may w (.acting errors [] commits) w (.committing (.returned errors) commits)
  | commit {w e key counts commits} :
      Step env may w (.committing e ((key, counts) :: commits))
        { w with instances := w.instances.put key { counts with current := counts.desired } }
        (.committing e commits)
  | leave {w e} : Step env may w (.committing e []) w (.ended e)

/-- A phase that can have more outcomes can take the same steps. -/
theorem Step.mono {env : Environment} {may may' : Outcomes} {w w' : World} {q q' : PhaseState}
    (hmay : ∀ w a op done, may w a op done → may' w a op done) (h : Step env may w q w' q') :
    Step env may' w q w' q' := by
  cases h with
  | refuse h => exact .refuse h
  | idle h => exact .idle h
  | enrol h => exact .enrol h
  | read h => exact .read h
  | write => exact .write
  | next h => exact .next h
  | operate h hdone => exact .operate h (hmay _ _ _ _ hdone)
  | finish h => exact .finish h
  | settle => exact .settle
  | commit => exact .commit
  | leave => exact .leave

theorem Step.any {env : Environment} {w w' : World} {q q' : PhaseState}
    (h : Step env env.performs w q w' q') : Step env .any w q w' q' :=
  h.mono fun _ _ _ _ hdone => Environment.performs_any hdone

def commits? : PhaseState → Option GroupKey
  | .committing _ ((key, _) :: _) => some key
  | _ => none

/-- How a phase ends, as far as that is known. -/
def outcome : PhaseState → UnitEnd
  | .acting errors _ _ => .returned errors
  | .committing e _ => e
  | .ended e => e
  | _ => .returned []

def errors (q : PhaseState) : List RunError := q.outcome.own

def isEnded : PhaseState → Bool
  | .ended _ => true
  | _ => false

end PhaseState

def Environment.keysOf (env : Environment) (p : Phase) : List GroupKey :=
  match env.ready p with
  | .ok (some r) => groupKeys r.namespaces r.bundle
  | _ => []

theorem Environment.keysOf_ready {env : Environment} {p : Phase} {r : ReadyPhase}
    (h : env.ready p = .ok (some r)) : env.keysOf p = groupKeys r.namespaces r.bundle := by
  unfold Environment.keysOf
  rw [h]

theorem Environment.exists_ready_of_mem_keysOf {env : Environment} {p : Phase} {key : GroupKey}
    (hk : key ∈ env.keysOf p) : ∃ r, env.ready p = .ok (some r) := by
  unfold Environment.keysOf at hk
  split at hk
  · exact ⟨_, ‹_›⟩
  · cases hk

/-! ## Phases beside each other -/

/-- Phases beside each other at a moment. -/
structure Interleaving where
  world : World
  phases : List PhaseState
  /-- The commits so far with the position of the phase, the latest last. -/
  commits : List (Nat × GroupKey) := []

namespace Interleaving

def start (w : World) (phases : List Phase) : Interleaving :=
  { world := w, phases := phases.map .waiting }

/-- Any phase can take the next step. -/
inductive Step (env : Environment) (may : Outcomes) : Interleaving → Interleaving → Prop
  | mk {w w' before q q' after commits} (h : PhaseState.Step env may w q w' q') :
      Step env may ⟨w, before ++ q :: after, commits⟩
        ⟨w', before ++ q' :: after, commits ++ (q.commits?.map (before.length, ·)).toList⟩

/-- The moments that some order of the steps leads to. -/
abbrev Reaches (env : Environment) (may : Outcomes) : Interleaving → Interleaving → Prop :=
  Relation.ReflTransGen (Step env may)

theorem Reaches.any {env : Environment} {t t' : Interleaving} (h : Reaches env env.performs t t') :
    Reaches env .any t t' := by
  refine Relation.ReflTransGen.mono ?_ _ _ h
  rintro _ _ ⟨hs⟩
  exact .mk hs.any

def Ended (t : Interleaving) : Prop := ∀ q ∈ t.phases, q.isEnded = true

/-- The errors of the phases of a step. -/
def errors (step : String) (t : Interleaving) : List RunError :=
  united step (t.phases.map PhaseState.outcome)

theorem mem_errors {step : String} {t : Interleaving} {e : RunError} (h : e ∈ t.errors step) :
    (∃ q ∈ t.phases, e ∈ q.errors) ∨ ∃ index reason, e = .crashedUnit step index reason := by
  rw [errors, united_map] at h
  obtain ⟨⟨q, index⟩, hq, h⟩ := List.mem_flatMap.mp h
  rcases UnitEnd.mem_errors h with h | ⟨reason, rfl⟩
  · exact .inl ⟨q, List.fst_mem_of_mem_zipIdx hq, h⟩
  · exact .inr ⟨index, reason, rfl⟩

end Interleaving

/-! ## A small phase -/

/-- An environment in which every template is one text, with one tuning set. -/
def sampleEnvironment : Environment where
  templates := fun _ => .ok "kind: A"
  tuningSets := .ofList [{ name := "one at a time", parallelismLimit := some 1 }]
  scope := "run"

def sampleTemplate (basename : String) : ObjectTemplate := { basename, path := "a.yaml" }

def samplePhase (basename : String) (replicas : UInt32) : Phase where
  replicas := replicas
  tuningSet := "one at a time"
  bundle := [sampleTemplate basename]

theorem object_sampleEnvironment (path : String) (values : Dict) :
    sampleEnvironment.object path values = sampleEnvironment.bareObject path := by
  have hp : Template.parse "kind: A" = .ok [.text "kind: A"] := rfl
  have hd : Template.dropSpans "kind: A" = "kind: A" := by decide +kernel
  change Object.ofTemplate values "kind: A" = Object.ofBareTemplate "kind: A"
  unfold Object.ofTemplate Object.ofBareTemplate
  rw [hd, Template.renderText_of_text hp, Template.renderText_of_text hp]

theorem bareObject_sampleEnvironment (path : String) :
    ∃ found, sampleEnvironment.bareObject path = .ok found ∧ found.kind = "A" ∧
      found.groupVersionKind.group = "" := by
  have h : sampleEnvironment.identify (sampleTemplate "a") = .ok ⟨"a", "A", ""⟩ := by
    decide +kernel
  obtain ⟨found, hf, hg⟩ := Environment.identify_ok h
  simp only [ReplicaGroup.mk.injEq] at hg
  exact ⟨found, hf, hg.2.1.symm, hg.2.2.symm⟩

theorem identify_sampleTemplate (basename : String) :
    sampleEnvironment.identify (sampleTemplate basename) = .ok ⟨basename, "A", ""⟩ := by
  obtain ⟨found, hf, hk, hg⟩ := bareObject_sampleEnvironment (sampleTemplate basename).path
  unfold Environment.identify
  rw [hf, ← hk, ← hg]
  rfl

theorem identifyAll_samplePhase (basename : String) (replicas : UInt32) :
    sampleEnvironment.identifyAll (samplePhase basename replicas).bundle =
      .ok [(sampleTemplate basename, ⟨basename, "A", ""⟩)] := by
  simp [samplePhase, Environment.identifyAll, identify_sampleTemplate]

theorem select_samplePhase (basename : String) (replicas : UInt32) :
    sampleEnvironment.tuningSets.select (samplePhase basename replicas).tuningSet =
      .ok (.parallelismLimited 1) := rfl

theorem ready_samplePhase (basename : String) (replicas : UInt32) :
    sampleEnvironment.ready (samplePhase basename replicas) =
      .ok (some ⟨.parallelismLimited 1, [(sampleTemplate basename, ⟨basename, "A", ""⟩)], [""],
        replicas.toNat⟩) := by
  have hn : namespaceList sampleEnvironment.scope (samplePhase basename replicas).range = [""] :=
    rfl
  unfold Environment.ready
  simp only [hn, select_samplePhase, identifyAll_samplePhase]
  rfl

theorem keysOf_samplePhase (basename : String) (replicas : UInt32) :
    sampleEnvironment.keysOf (samplePhase basename replicas) = [("", ⟨basename, "A", ""⟩)] := by
  rw [Environment.keysOf_ready (ready_samplePhase basename replicas)]
  rfl

end ReplicaLoad

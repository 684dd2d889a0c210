-- Phases. A phase first enters the count that it wants for every group in every
-- namespace, and plans the actions from the counts that were reached before.
-- When all actions have ended, in whatever way, the counts that it wanted
-- become the counts that were reached. That also happens when its tuning set
-- crashes before any action has started.
import ReplicaLoad.Pacing.Timeline
import ReplicaLoad.Run.Action
import ReplicaLoad.Run.Environment
import ReplicaLoad.Run.Namespaces

namespace ReplicaLoad

structure PlannedPhase where
  pacing : Pacing
  actions : List Action
  /-- The counts that are entered when all actions have ended. -/
  commits : List (GroupKey × Instances)

structure ReadyPhase where
  load : Load
  bundle : List (ObjectTemplate × ReplicaGroup)
  namespaces : List String
  target : Nat

/-- The groups of the templates of a bundle, or the error of the first one that has none. -/
def Environment.identifyAll (env : Environment) :
    List ObjectTemplate → Except RunError (List (ObjectTemplate × ReplicaGroup))
  | [] => .ok []
  | o :: rest =>
    match env.identify o with
    | .error e => .error e
    | .ok g => match env.identifyAll rest with
      | .error e => .error e
      | .ok gs => .ok ((o, g) :: gs)

/-- The counts of a group, with another wanted count. -/
def InstanceStore.aim (s : InstanceStore) (key : GroupKey) (o : ObjectTemplate) (target : Nat) :
    Instances :=
  { (s.get? key).getD (.fresh o) with desired := target }

/-- Enter the wanted count of the groups of a bundle in a namespace. The result has the groups with
their counts. -/
def InstanceStore.aimAll (ns : String) (target : Nat) (s : InstanceStore) :
    List (ObjectTemplate × ReplicaGroup) →
      List (ObjectTemplate × GroupKey × Instances) × InstanceStore
  | [] => ([], s)
  | (o, g) :: rest =>
    let key := (ns, g)
    let counts := s.aim key o target
    -- a group that comes again is read as it has just been entered
    let (more, s) := aimAll ns target (s.put key counts) rest
    ((o, key, counts) :: more, s)

/-- Enter the wanted counts of the groups of a bundle in namespaces, and plan the actions. -/
def InstanceStore.plan (bundle : List (ObjectTemplate × ReplicaGroup)) (target : Nat)
    (s : InstanceStore) :
    List String → List Action × List (GroupKey × Instances) × InstanceStore
  | [] => ([], [], s)
  | ns :: rest =>
    let (aimed, s) := s.aimAll ns target bundle
    let actions := planNamespace ns (aimed.map fun (o, _, counts) => (o, counts.current)) target
    let (more, commits, s) := plan bundle target s rest
    (actions ++ more, aimed.map (fun (_, key, counts) => (key, counts)) ++ commits, s)

/-- The counts that were wanted become the counts that were reached. -/
def InstanceStore.commit (s : InstanceStore) (commits : List (GroupKey × Instances)) :
    InstanceStore :=
  commits.foldl (fun s (key, counts) => s.put key { counts with current := counts.desired }) s

/-- What a phase works with. There is nothing to do when its range is empty; and it cannot begin
when its tuning set cannot be used or a template of its bundle has no identity. -/
def Environment.ready (env : Environment) (p : Phase) : Except RunError (Option ReadyPhase) :=
  match namespaceList env.scope p.range with
  | [] => .ok none
  | namespaces => match env.tuningSets.select p.tuningSet with
    | .error e => .error (.tuningSet e)
    | .ok load => match env.identifyAll p.bundle with
      | .error e => .error e
      | .ok bundle => .ok (some ⟨load, bundle, namespaces, p.replicas.toNat⟩)

/-- What becomes of a phase at its beginning. -/
inductive PhaseStart where
  /-- It cannot begin. -/
  | refused (e : RunError)
  /-- It has nothing to do. -/
  | idle
  /-- Its tuning set cannot start the actions. -/
  | crashed (reason : String)
  | planned (q : PlannedPhase)

/-- Begin a phase. Nothing is changed when it cannot begin or has nothing to do. -/
def World.beginPhase (w : World) (env : Environment) (p : Phase) : PhaseStart × World :=
  match env.ready p with
  | .error e => (.refused e, w)
  | .ok none => (.idle, w)
  | .ok (some r) =>
    let (actions, commits, instances) := w.instances.plan r.bundle r.target r.namespaces
    match r.load.pacing env.draws actions.length with
    | some pacing => (.planned ⟨pacing, actions, commits⟩, { w with instances })
    -- the counts that it has entered are committed as it unwinds
    | none => (.crashed Load.divisionCrash, { w with instances := instances.commit commits })

/-! ## Running actions -/

structure PhaseRun where
  world : World
  /-- The errors of each phase so far. -/
  pending : List ErrorList
  /-- The errors of the phases that have ended. -/
  ended : ErrorList := {}

/-- What is left to do of an action: operations, or first a request that has been made. -/
inductive ActionJob where
  | next (a : Action) (operations : List ObjectOperation)
  | send (a : Action) (op : ObjectOperation) (r : Request) (operations : List ObjectOperation)

/-- A bound for the number of waits that are left: one before every operation. -/
def ActionJob.size : ActionJob → Nat
  | next _ operations => operations.length
  | send _ _ _ operations => operations.length

namespace PhaseRun

def fail (s : PhaseRun) (phase : Nat) (e : RunError) : PhaseRun :=
  { s with pending := s.pending.modify phase (·.append e) }

def crashed (a : Action) (reason : String) : RunError :=
  .task s!"namespace {Text.quoted a.ns} replica {a.index} action" reason

def send (s : PhaseRun) (client : Client) (phase : Nat) (a : Action) (name : String) (r : Request) :
    Bool × PhaseRun :=
  match s.world.send client a.ns name r with
  | (none, world) => (true, { s with world })
  | (some e, world) => (false, { s with world }.fail phase e)

/-- Whether an action goes on after an operation. -/
def goesOn (a : Action) (succeeded : Bool) : Bool := succeeded || a.kind = .delete

/-- Do the operations of an action, up to the first request that has to wait for the cluster. -/
def operate (env : Environment) (phase : Nat) (a : Action) (s : PhaseRun) :
    List ObjectOperation → PhaseRun × Turn ActionJob
  | [] => (s, .done)
  | op :: rest =>
    match env.request op.object a.index op.operation with
    | .error e =>
      let s := s.fail phase e
      if goesOn a false then operate env phase a s rest else (s, .done)
    | .ok r =>
      let name := op.object.objectName a.index
      match env.client.crash? name with
      -- a crash ends an action of either kind
      | some reason => (s.fail phase (crashed a reason), .done)
      | none =>
        if env.client.latency = 0 then
          let (succeeded, s) := s.send env.client phase a name r
          if goesOn a succeeded then operate env phase a s rest else (s, .done)
        else (s, .wait (Nanos.ofMillis env.client.latency) (.send a op r rest))

def turn (env : Environment) (phase : Nat) (s : PhaseRun) : ActionJob → PhaseRun × Turn ActionJob
  | .next a operations => s.operate env phase a operations
  | .send a op r rest =>
    let (succeeded, s) := s.send env.client phase a (op.object.objectName a.index) r
    if goesOn a succeeded then s.operate env phase a rest else (s, .done)

def close (commits : List (List (GroupKey × Instances))) (phase : Nat) (s : PhaseRun) : PhaseRun :=
  { s with
    world := { s.world with instances := s.world.instances.commit (commits[phase]?.getD []) }
    ended := s.ended.concat (s.pending[phase]?.getD {}) }

end PhaseRun

def phaseCrew (env : Environment) (phases : List PlannedPhase) : Crew PhaseRun ActionJob where
  turn _ phase job s := s.turn env phase job
  close _ phase s := s.close (phases.map (·.commits)) phase

/-- Phases of a step at the beginning of its run. -/
structure PhasesStart where
  planned : List PlannedPhase := []
  /-- The errors of the phases that cannot begin. -/
  refusals : ErrorList := {}
  /-- The errors that the step has from the phases that have crashed. -/
  crashes : ErrorList := {}
  world : World

/-- Begin the phases of a step one after another, each with its position in the step. -/
def World.beginPhases (w : World) (env : Environment) (step : String) :
    List (Phase × Nat) → PhasesStart
  | [] => { world := w }
  | (p, index) :: rest =>
    let (start, w) := w.beginPhase env p
    let more := w.beginPhases env step rest
    match start with
    | .refused e => { more with refusals := ErrorList.concat ⟨[e]⟩ more.refusals }
    | .idle => more
    | .crashed reason =>
      { more with crashes := ErrorList.concat ⟨[.crashedUnit step index reason]⟩ more.crashes }
    | .planned q => { more with planned := q :: more.planned }

/-- Run the phases of a step beside each other from a time on. -/
def World.runPhases (w : World) (env : Environment) (step : String) (now : Millis)
    (phases : List Phase) : ErrorList × World × Millis :=
  let b := w.beginPhases env step phases.zipIdx
  let lanes := b.planned.map fun q =>
    (q.pacing, q.actions.map fun a => ActionJob.next a a.operations)
  -- refused phases have returned already, and then the step finds those that have crashed
  let start : PhaseRun :=
    { world := b.world, pending := b.planned.map fun _ => {}, ended := b.refusals.concat b.crashes }
  let t := (phaseCrew env b.planned).run ActionJob.size now lanes start
  (t.world.ended, t.world.world, t.now)

end ReplicaLoad

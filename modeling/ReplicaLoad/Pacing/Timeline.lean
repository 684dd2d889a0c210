-- Timelines. Jobs that share a world, on a clock of whole milliseconds. A job
-- runs until it waits; nothing else happens meanwhile, and the clock stands
-- still while a job is ready. The jobs of a lane are started in order, as its
-- pacing says; lanes run beside each other. Jobs that are ready take turns in
-- the order in which they became ready, and waits that end at the same time end
-- in the order in which they began.
import ReplicaLoad.Pacing.Pacing

namespace ReplicaLoad

/-- What a job does at the end of its turn. -/
inductive Turn (τ : Type) where
  | done
  | wait (d : Nanos) (next : τ)

/-- What jobs do to the world, and what happens when all jobs of a lane have ended. -/
structure Crew (ω τ : Type) where
  /-- A turn of a job of a lane. -/
  turn : Millis → Nat → τ → ω → ω × Turn τ
  /-- The end of a lane. -/
  close : Millis → Nat → ω → ω

/-- A job that was not started yet, with the pause before it and the wait at its beginning. -/
structure Pending (τ : Type) where
  pause : Nanos
  offset : Nanos
  job : τ

/-- Something that can be ready or asleep: the starter of a lane with the jobs that it has still
to start, or a job that was started. -/
inductive Token (τ : Type) where
  | starter (lane : Nat) (waiting : List (Pending τ))
  | job (lane : Nat) (state : τ)

structure Lane (τ : Type) where
  /-- Permits that no job holds, if their number is limited. -/
  permits : Option Nat
  /-- The number of started jobs that have not ended. -/
  running : Nat := 0
  /-- The starter while it waits for a job to end. -/
  parked : Option (List (Pending τ)) := none
  /-- Whether all jobs have ended. -/
  closed : Bool := false

/-- A world with its jobs at a moment. -/
structure Timeline (ω τ : Type) where
  now : Millis
  /-- Tokens that are ready, the next one first. -/
  ready : List (Token τ)
  /-- Tokens that wait, with the end of their wait, the earliest begun first. -/
  asleep : List (Millis × Token τ)
  lanes : List (Lane τ)
  world : ω

namespace Lane

variable {τ : Type}

def start (l : Lane τ) : Lane τ :=
  { l with permits := l.permits.map (· - 1), running := l.running + 1 }

def finish (l : Lane τ) : Lane τ :=
  { l with permits := l.permits.map (· + 1), running := l.running - 1, parked := none }

end Lane

namespace Timeline

variable {ω τ : Type}

def onLane (t : Timeline ω τ) (lane : Nat) (f : Lane τ → Lane τ) : Timeline ω τ :=
  { t with lanes := t.lanes.modify lane f }

def sleep (t : Timeline ω τ) (d : Nanos) (token : Token τ) : Timeline ω τ :=
  { t with asleep := t.asleep ++ [(t.now.after d, token)] }

/-- The turn of the starter of a lane: pause, wait for a permit, start the next job, or wait for
the last one to end. -/
def starterTurn (crew : Crew ω τ) (t : Timeline ω τ) (lane : Nat) (l : Lane τ) :
    List (Pending τ) → Timeline ω τ
  | [] =>
    if l.running = 0 then
      { t.onLane lane ({ · with closed := true }) with world := crew.close t.now lane t.world }
    else t.onLane lane ({ · with parked := some [] })
  | p :: rest =>
    if p.pause ≠ 0 then t.sleep p.pause (.starter lane ({ p with pause := 0 } :: rest))
    else if l.permits = some 0 then t.onLane lane ({ · with parked := some (p :: rest) })
    else
      let t := t.onLane lane Lane.start
      -- the starter goes on at once, ahead of the job that it has started
      if p.offset ≠ 0 then
        { t with ready := .starter lane rest :: t.ready }.sleep p.offset (.job lane p.job)
      else { t with ready := .starter lane rest :: (t.ready ++ [.job lane p.job]) }

/-- The turn of a job. When it ends, a starter that waits for that becomes ready. -/
def jobTurn (crew : Crew ω τ) (t : Timeline ω τ) (lane : Nat) (l : Lane τ) (state : τ) :
    Timeline ω τ :=
  let (world, turn) := crew.turn t.now lane state t.world
  let t := { t with world }
  match turn with
  | .done =>
    let t := t.onLane lane Lane.finish
    match l.parked with
    | some waiting => { t with ready := t.ready ++ [.starter lane waiting] }
    | none => t
  | .wait d next =>
    -- a wait of no length does not let anybody else in
    if d = 0 then { t with ready := .job lane next :: t.ready } else t.sleep d (.job lane next)

def nextWake (t : Timeline ω τ) : Option Millis := (t.asleep.map (·.1)).min?

/-- One turn of the token that is next, or a step of the clock to the end of the next wait. There
is no step when everything has ended. -/
def step (crew : Crew ω τ) (t : Timeline ω τ) : Option (Timeline ω τ) :=
  match t.ready with
  | .starter lane waiting :: rest =>
    some <| match t.lanes[lane]? with
      | some l => starterTurn crew { t with ready := rest } lane l waiting
      | none => { t with ready := rest }
  | .job lane state :: rest =>
    some <| match t.lanes[lane]? with
      | some l => jobTurn crew { t with ready := rest } lane l state
      | none => { t with ready := rest }
  | [] =>
    -- all that sleep until then wake up together, in the order in which they fell asleep
    t.nextWake.map fun time =>
      { t with
        now := time
        ready := (t.asleep.filter (·.1 = time)).map (·.2)
        asleep := t.asleep.filter (·.1 ≠ time) }

/-- Take up to a number of steps. -/
def steps (crew : Crew ω τ) : Nat → Timeline ω τ → Timeline ω τ
  | 0, t => t
  | fuel + 1, t => match t.step crew with
    | none => t
    | some t => steps crew fuel t

end Timeline

/-- The jobs of a lane as its pacing starts them. -/
def Pacing.schedule {τ : Type} (p : Pacing) (jobs : List τ) : List (Pending τ) :=
  jobs.zipIdx.map fun (job, i) => ⟨p.pause i, p.offset i, job⟩

/-- The beginning of a run: the starters of all lanes are ready. -/
def Timeline.start {ω τ : Type} (now : Millis) (lanes : List (Pacing × List τ)) (world : ω) :
    Timeline ω τ where
  now := now
  ready := lanes.zipIdx.map fun ((p, jobs), i) => .starter i (p.schedule jobs)
  asleep := []
  lanes := lanes.map fun (p, _) => { permits := p.permits }
  world := world

/-- A bound for the number of steps that lanes of jobs take. `size` bounds the number of waits of a
job; a job takes two steps for every wait and at most six for its start and its end. -/
def workOf {τ : Type} (size : τ → Nat) (lanes : List (Pacing × List τ)) : Nat :=
  lanes.foldr (fun lane n => lane.2.foldr (fun job n => 2 * size job + 8 + n) 4 + n) 0

def Crew.run {ω τ : Type} (crew : Crew ω τ) (size : τ → Nat) (now : Millis)
    (lanes : List (Pacing × List τ)) (world : ω) : Timeline ω τ :=
  (Timeline.start now lanes world).steps crew (workOf size lanes)

end ReplicaLoad

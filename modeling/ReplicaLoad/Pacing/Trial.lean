-- Trying out a tuning set. A trial runs actions of given lengths under a load
-- and records when they start and end. An action ends in order or by a crash.
import ReplicaLoad.Pacing.Timeline

namespace ReplicaLoad

/-- An action of a trial: before its start, or until its end. -/
inductive TrialJob where
  | starting (index : Nat) (hold : Millis) (crashes : Bool)
  | ending (index : Nat) (crashes : Bool)
  deriving DecidableEq

/-- The end of an action. -/
structure TrialEnd where
  index : Nat
  time : Millis
  /-- Whether the action ended by a crash. -/
  crashed : Bool
  deriving DecidableEq

inductive TrialEvent where
  | start (index : Nat) (time : Millis)
  | finish (e : TrialEnd)
  /-- Nothing is left to wait for, and the tuning set returns. -/
  | leave (time : Millis)
  deriving DecidableEq

namespace TrialEvent

def time : TrialEvent → Millis
  | start _ time => time
  | finish e => e.time
  | leave time => time

def start? : TrialEvent → Option (Nat × Millis)
  | start index time => some (index, time)
  | _ => none

def end? : TrialEvent → Option TrialEnd
  | finish e => some e
  | _ => none

end TrialEvent

structure TrialLog where
  /-- What has happened, the latest last. -/
  events : List TrialEvent := []

namespace TrialLog

def push (log : TrialLog) (e : TrialEvent) : TrialLog := ⟨log.events ++ [e]⟩

/-- The index and the time of each start, the latest start last. -/
def starts (log : TrialLog) : List (Nat × Millis) := log.events.filterMap TrialEvent.start?

/-- The ends of the actions, the latest end last. -/
def ends (log : TrialLog) : List TrialEnd := log.events.filterMap TrialEvent.end?

/-- The number of actions that have started and not ended. -/
def inFlight (log : TrialLog) : Nat := log.starts.length - log.ends.length

/-- The greatest number of actions that were in flight at a moment. -/
def maxInFlight (log : TrialLog) : Nat :=
  ((List.range (log.events.length + 1)).map fun k => inFlight ⟨log.events.take k⟩).foldl max 0

end TrialLog

def trialCrew : Crew TrialLog TrialJob where
  turn now _ job log := match job with
    | .starting index hold crashes =>
      let log := log.push (.start index now)
      if hold = 0 then (log.push (.finish ⟨index, now, crashes⟩), .done)
      else (log, .wait (Nanos.ofMillis hold) (.ending index crashes))
    | .ending index crashes => (log.push (.finish ⟨index, now, crashes⟩), .done)
  close now _ log := log.push (.leave now)

structure Trial where
  log : TrialLog
  /-- When everything had ended. -/
  finished : Millis

/-- Run actions under a load from time zero on, some of which may crash at their end; there is no
trial when the load cannot start that many. -/
def Load.trial (load : Load) (draws : Draws) (holds : List Millis)
    (crashes : Nat → Bool := fun _ => false) : Option Trial :=
  (load.pacing draws holds.length).map fun pacing =>
    let jobs := holds.zipIdx.map fun (hold, i) => TrialJob.starting i hold (crashes i)
    let t := trialCrew.run (fun _ => 1) 0 [(pacing, jobs)] {}
    ⟨t.world, t.now⟩

/-- The latest start that the random choices of a load allow, for a number of actions. -/
def Load.latestStart? (count : Nat) : Load → Option Millis
  | .randomized rate => some ((gapBound rate).ceilMillis * (count - 1))
  | .randomizedTimeLimited limit => some limit.toNat
  | _ => none

end ReplicaLoad

-- Steps. A step calls its measurements beside each other if it has any, and
-- runs its phases beside each other otherwise. Calls that reach the same
-- instance of a measurement wait for each other, in the order in which they
-- came. A call that crashes is an error of the step and stops no other call.
import ReplicaLoad.Run.Phase

namespace ReplicaLoad

structure CallRun where
  measurements : Measurements BuiltinState
  /-- Until when an instance is taken by a call. -/
  takenUntil : Table InstanceKey Millis := Table.empty
  errors : ErrorList := {}

/-- What is left to do of a call of a measurement: the call, or what comes after its wait. -/
inductive CallJob where
  | call (index : Nat) (m : MeasurementCall)
  | finish (index : Nat) (m : MeasurementCall) (outcome : CallOutcome)

namespace CallRun

/-- A call has ended: its summaries become pending, or its error is recorded. -/
def finish (step : String) (s : CallRun) (index : Nat) (m : MeasurementCall) (outcome : CallOutcome) :
    CallRun :=
  match outcome with
  | .summaries _ => { s with measurements := s.measurements.collect outcome }
  | .error e => { s with errors := s.errors.append (.measurement m.method m.identifier e) }
  | .crash reason => { s with errors := s.errors.append (.crashedUnit step index reason) }

def turn (step : String) (now : Millis) (s : CallRun) : CallJob → CallRun × Turn CallJob
  | .finish index m outcome => (s.finish step index m outcome, .done)
  | .call index m =>
    let key := (m.method, m.identifier)
    let free := (s.takenUntil.get? key).getD 0
    -- another call has the instance, and this one tries again when it is free
    if now < free then (s, .wait (Nanos.ofMillis (free - now)) (.call index m))
    else
      let (measurements, lasts, outcome) := s.measurements.call now m.method m.identifier m.params
      let s := { s with measurements }
      if lasts = 0 then (s.finish step index m outcome, .done)
      else
        let s := { s with takenUntil := s.takenUntil.put key (now.after lasts) }
        (s, .wait lasts (.finish index m outcome))

end CallRun

def callCrew (step : String) : Crew CallRun CallJob where
  turn now _ job s := s.turn step now job
  close _ _ s := s

/-- Call measurements beside each other from a time on. A call waits at most once for every call
before it, and once for itself. -/
def World.callAll (w : World) (step : String) (now : Millis) (calls : List MeasurementCall) :
    ErrorList × World × Millis :=
  let jobs := calls.zipIdx.map fun (m, i) => CallJob.call i m
  let size := calls.length + 1
  let t := (callCrew step).run (fun _ => size) now [(.immediate, jobs)] { measurements := w.measurements }
  (t.world.errors, { w with measurements := t.world.measurements }, t.now)

def World.runStep (w : World) (env : Environment) (now : Millis) (s : Step) :
    ErrorList × World × Millis :=
  if s.measurements.isEmpty then w.runPhases env s.displayName now s.phases
  else w.callAll s.displayName now s.measurements

end ReplicaLoad

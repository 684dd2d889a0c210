-- Methods of measurement. `Sleep` pauses a step. `Timer` measures labelled
-- intervals. `Probe` does what its parameters say, which shows how a test copes
-- with measurements that fail.
import ReplicaLoad.Measurement.Basic

namespace ReplicaLoad

structure TimerState where
  /-- The start of each interval that is open. -/
  running : Table String Millis := Table.empty
  /-- The length of the last interval of each label. -/
  finished : Table String Millis := Table.empty

/-- The state of an instance of one of the methods here. -/
inductive BuiltinState where
  | sleep
  | timer (state : TimerState)
  | probe (calls : Nat)

def secondsOf (ms : Millis) : Float :=
  Float.ofNat (ms / 1000) + Float.ofNat (ms % 1000 * Nanos.perMilli) / 1e9

/-- The summary of a timer: the seconds of the last interval of each label. -/
def TimerState.summary (t : TimerState) : Summary :=
  let durations := Dict.ofList (t.finished.entries.map fun (label, ms) => (label, .float (secondsOf ms)))
  ⟨"Timer", .text (Value.pretty 0 (.dict [("durations_seconds", .dict durations)]))⟩

/-- A call of a timer: `start` and `stop` mark an interval, `gather` returns the summary. A call
that fails changes nothing. -/
def TimerState.call (now : Millis) (params : Dict) (t : TimerState) :
    Except MeasurementError (TimerState × List Summary) :=
  match textParam params "action" with
  | .error e => .error e
  | .ok "start" => match textParam params "label" with
    | .error e => .error e
    | .ok label => .ok ({ t with running := t.running.put label now }, [])
  | .ok "stop" => match textParam params "label" with
    | .error e => .error e
    | .ok label => match t.running.get? label with
      | none => .error (.failed s!"timer {label} was not started")
      | some started =>
        .ok (⟨t.running.erase label, t.finished.put label (now - started)⟩, [])
  | .ok "gather" => .ok (t, [t.summary])
  | .ok other => .error (.invalidParam "action" s!"unknown action {other}")

def timerMethod : Method BuiltinState where
  fresh := .timer {}
  call now params state := match state with
    | .timer t => match t.call now params with
      | .ok (t, summaries) => { state := .timer t, outcome := .summaries summaries }
      | .error e => { state, outcome := .error e }
    | _ => { state, outcome := .summaries [] }

def sleepMethod : Method BuiltinState where
  fresh := .sleep
  call _ params state := match countParam params "durationMs" with
    | .ok ms => { state, lasts := Nanos.ofMillis ms, outcome := .summaries [] }
    | .error e => { state, outcome := .error e }

def Dict.textAt? (d : Dict) (key : String) : Option String := (d.get? key).bind Value.text?

/-- A summary as the parameters of a probe describe it. -/
def probeSummary (calls : Nat) (description : Value) : Summary :=
  let d := description.dict?.getD []
  let printed := match d.textAt? "panic", d.textAt? "fail" with
    | some reason, _ => .crashes reason
    | none, some reason => .fails (.failed reason)
    | none, none => .text ((d.textAt? "text").getD "" ++ "#" ++ toString calls)
  ⟨(d.textAt? "name").getD "Probe", printed⟩

def probeMethod : Method BuiltinState where
  fresh := .probe 0
  call _ params state := match state with
    | .probe n =>
      let calls := n + 1
      let outcome := match params.textAt? "panic", params.textAt? "fail" with
        | some reason, _ => .crash reason
        | none, some reason => .error (.failed reason)
        | none, none => match params.get? "summaries" with
          | some (.list ds) => .summaries (ds.map (probeSummary calls))
          | _ => .summaries []
      { state := .probe calls, outcome }
    | _ => { state, outcome := .summaries [] }

def builtinMethods : List (String × Method BuiltinState) :=
  [("Sleep", sleepMethod), ("Timer", timerMethod)]

def probedMethods : List (String × Method BuiltinState) := builtinMethods ++ [("Probe", probeMethod)]

end ReplicaLoad

-- Settings. What a run is told besides its test: where summaries go, where
-- templates are, which errors end the run, and how slow the simulated cluster
-- is.
import ReplicaLoad.Run.ErrorList

namespace ReplicaLoad

structure Settings where
  /-- The folder for the summaries. Without one they are not written. -/
  reportDir : Option String := none
  /-- The folder of the templates, if it is not that of the test. -/
  templateDir : Option String := none
  policy : FatalityPolicy := .default
  /-- The milliseconds that a call of the cluster takes. -/
  latencyMs : UInt64 := 0
  deriving DecidableEq

namespace Settings

def latency? (s : Settings) : Option Millis := if s.latencyMs = 0 then none else some s.latencyMs.toNat

def showOption : Option String → String
  | none => "None"
  | some s => s!"Some({Text.quoted s})"

def showPolicy : FatalityPolicy → String
  | .default => "Default"
  | .abortOnAnyError => "AbortOnAnyError"

def describe (s : Settings) : String :=
  s!"LoaderConfig \x7b report_dir: {showOption s.reportDir}, template_dir: {showOption s.templateDir}, " ++
    s!"fatality_policy: {showPolicy s.policy}, simulated_latency_ms: {s.latencyMs} \x7d"

end Settings

end ReplicaLoad

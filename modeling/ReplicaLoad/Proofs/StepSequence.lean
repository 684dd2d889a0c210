-- The steps that a test takes. A test takes its steps in order up to the first
-- one that returns critical errors, and all of them if there is none. What it
-- leaves behind and what it returns is what these steps do one after another.
-- As no step returns an error of the setup, the default policy lets every step
-- run; the other policy ends a test behind the first step with an error.
import ReplicaLoad.Proofs.StepErrors
import ReplicaLoad.Proofs.TestErrors

namespace ReplicaLoad

/-- Take steps one after another, whatever they return: the errors of each, and the world and the
time after them. -/
def World.takeSteps (w : World) (env : Environment) (now : Millis) :
    List Step → List ErrorList × World × Millis
  | [] => ([], w, now)
  | s :: rest =>
    let (found, w, now) := w.runStep env now s
    let (more, w, now) := w.takeSteps env now rest
    (found :: more, w, now)

/-- A policy ends a test behind steps that have returned some errors, with others left: only the
last of these steps is critical, and it is if a step is left. -/
structure FatalityPolicy.Stops (policy : FatalityPolicy) (returned : List ErrorList)
    (left : List Step) : Prop where
  earlier : ∀ found ∈ returned.dropLast, policy.isCritical found = false
  last : left ≠ [] → ∃ found, returned.getLast? = some found ∧ policy.isCritical found = true

namespace FatalityPolicy

variable {policy : FatalityPolicy} {found : ErrorList} {returned : List ErrorList}
  {left : List Step}

theorem stops_nil (policy : FatalityPolicy) : policy.Stops [] [] :=
  ⟨nofun, fun h => absurd rfl h⟩

/-- A step with critical errors is the last one. -/
theorem stops_critical (h : policy.isCritical found = true) (left : List Step) :
    policy.Stops [found] left :=
  ⟨nofun, fun _ => ⟨found, rfl, h⟩⟩

/-- A step without critical errors comes before the others. -/
theorem Stops.cons (h : policy.Stops returned left) (hf : policy.isCritical found = false) :
    policy.Stops (found :: returned) left where
  earlier := by
    intro found' h'
    cases returned with
    | nil => cases h'
    | cons next rest =>
      rw [List.dropLast_cons_cons] at h'
      rcases List.mem_cons.mp h' with rfl | h'
      · exact hf
      · exact h.earlier found' h'
  last := by
    intro hleft
    obtain ⟨last, hlast, hcritical⟩ := h.last hleft
    exact ⟨last, by simp [List.getLast?_cons, hlast], hcritical⟩

/-- Without errors of the setup the default policy leaves no step. -/
theorem Stops.default_left (h : FatalityPolicy.default.Stops returned left)
    (hs : ∀ found ∈ returned, ∀ e ∈ found.errors, e.isSetup = false) : left = [] := by
  by_contra hleft
  obtain ⟨found, hlast, hcritical⟩ := h.last hleft
  obtain ⟨e, he, hsetup⟩ := List.any_eq_true.mp hcritical
  rw [hs found (List.mem_of_getLast? hlast) e he] at hsetup
  cases hsetup

theorem isCritical_abortOnAnyError (found : ErrorList) :
    FatalityPolicy.abortOnAnyError.isCritical found = true ↔ found.errors ≠ [] := by
  simp [isCritical, ErrorList.isEmpty]

/-- The other policy leaves steps only behind one with an error, the first such step. -/
theorem Stops.abort_left (h : FatalityPolicy.abortOnAnyError.Stops returned left) :
    (∀ found ∈ returned.dropLast, found.errors = []) ∧
      (left ≠ [] → ∃ found, returned.getLast? = some found ∧ found.errors ≠ []) := by
  refine ⟨fun found hf => ?_, fun hleft => ?_⟩
  · by_contra hne
    have hcritical := (isCritical_abortOnAnyError found).mpr hne
    rw [h.earlier found hf] at hcritical
    cases hcritical
  · obtain ⟨found, hlast, hcritical⟩ := h.last hleft
    exact ⟨found, hlast, (isCritical_abortOnAnyError found).mp hcritical⟩

end FatalityPolicy

namespace World

variable {env : Environment}

theorem isSetup_of_takeSteps {w : World} {now : Millis} {steps : List Step} {found : ErrorList}
    {e : RunError} (hf : found ∈ (w.takeSteps env now steps).1) (he : e ∈ found.errors) :
    e.isSetup = false := by
  induction steps generalizing w now with
  | nil => cases hf
  | cons s rest ih =>
    rcases List.mem_cons.mp hf with rfl | hf
    · exact isSetup_of_runStep he
    · exact ih hf

/-- A run of steps takes the first ones of them, as long as they return nothing critical. -/
theorem exists_taken (w : World) (env : Environment) (now : Millis) (steps : List Step) :
    ∃ done left, steps = done ++ left ∧
      env.settings.policy.Stops (w.takeSteps env now done).1 left ∧
      w.stepErrors env now steps = (w.takeSteps env now done).1 ∧
      ∀ errors, (w.runSteps env now errors steps).2 = (w.takeSteps env now done).2 := by
  -- from whatever world and time the steps before have led to
  induction steps generalizing w now with
  | nil => exact ⟨[], [], rfl, FatalityPolicy.stops_nil _, rfl, fun _ => rfl⟩
  | cons s rest ih =>
    cases hc : env.settings.policy.isCritical (w.runStep env now s).1 with
    | true =>
      refine ⟨[s], rest, rfl, FatalityPolicy.stops_critical hc rest, ?_, fun errors => ?_⟩
      · simp [stepErrors, takeSteps, hc]
      · simp [runSteps, takeSteps, hc]
    | false =>
      obtain ⟨done, left, rfl, hstops, herrors, hworld⟩ :=
        ih (w.runStep env now s).2.1 (w.runStep env now s).2.2
      refine ⟨s :: done, left, rfl, hstops.cons hc, ?_, fun errors => ?_⟩
      · simp [stepErrors, takeSteps, hc, herrors]
      · simp [runSteps, takeSteps, hc, hworld]

/-- The summaries of a test leave the world as the steps have made it, but take the summaries out of
it. -/
theorem runBody_world (w : World) (env : Environment) (stamp : Nat → String) (files : FileTree)
    (now : Millis) (t : LoadTest) :
    (w.runBody env stamp files now t).world = { (w.runSteps env now {} t.steps).2.1 with
      measurements := (w.runSteps env now {} t.steps).2.1.measurements.take.2 } ∧
    (w.runBody env stamp files now t).finished = (w.runSteps env now {} t.steps).2.2 := by
  unfold runBody
  dsimp only
  split
  · exact ⟨rfl, rfl⟩
  · exact ⟨rfl, rfl⟩

/-- The record of a test that can begin is that of its steps and summaries. -/
theorem testRecord_eq {w : World} {t : LoadTest} (stamp : Nat → String) (files : FileTree)
    (now : Millis) (hlist : w.cluster.listNamespaces env.scope = .ok [])
    (hcreate : (w.cluster.createNamespaces env.scope t.automanagedNamespaces.toNat).1 = .ok ()) :
    w.testRecord env stamp files now t =
      (w.begun env.scope t).bodyRecord { env with tuningSets := .ofList t.tuningSets } stamp files
        now t := by
  unfold testRecord
  rw [hlist]
  dsimp only
  rw [hcreate]

end World

/-- No step returns an error of the setup. A test that can begin, and in which printing a summary
does not crash, takes its steps up to the first one with critical errors. It returns the errors of
these steps in their order and those of the summaries behind them, and leaves what these steps leave.
So the default policy lets all steps run, and the other one none behind the first step with an
error. -/
theorem steps_up_to_critical (w : World) (env : Environment) (stamp : Nat → String)
    (files : FileTree) (now : Millis) (t : LoadTest)
    (hlist : w.cluster.listNamespaces env.scope = .ok [])
    (hcreate : (w.cluster.createNamespaces env.scope t.automanagedNamespaces.toNat).1 = .ok ())
    (hcrash : (w.testRecord env stamp files now t).crash = none) :
    (∀ (w : World) (env : Environment) (now : Millis) (s : Step),
      ∀ e ∈ (w.runStep env now s).1.errors, e.isSetup = false) ∧
    ∃ done left returned w' finished,
      t.steps = done ++ left ∧
      (w.begun env.scope t).takeSteps { env with tuningSets := .ofList t.tuningSets } now done =
        (returned, w', finished) ∧
      env.settings.policy.Stops returned left ∧
      (w.runTest env stamp files now t).errors.errors = returned.flatMap (·.errors) ++
        recorded env.settings.reportDir t.name stamp files 0 w'.measurements.pending ∧
      (w.runTest env stamp files now t).world =
        { w'.cleanUp env.scope with instances := w.instances, versions := w.versions } ∧
      (w.runTest env stamp files now t).finished = finished ∧
      (env.settings.policy = .default → left = []) ∧
      (env.settings.policy = .abortOnAnyError →
        (∀ found ∈ returned.dropLast, found.errors = []) ∧
        (left ≠ [] → ∃ found, returned.getLast? = some found ∧ found.errors ≠ [])) := by
  refine ⟨fun _ _ _ _ _ he => World.isSetup_of_runStep he, ?_⟩
  let env' := { env with tuningSets := TuningSets.ofList t.tuningSets }
  obtain ⟨done, left, hsteps, hstops, herrors, hworld⟩ :=
    (w.begun env.scope t).exists_taken env' now t.steps
  have hreturned := w.errors_runTest env stamp files now t
  unfold RunRecord.returned RunRecord.crashError at hreturned
  rw [hcrash, World.testRecord_eq stamp files now hlist hcreate] at hreturned
  obtain ⟨hbody, hfinished⟩ := (w.begun env.scope t).runBody_world env' stamp files now t
  refine ⟨done, left, _, _, _, hsteps, rfl, hstops, ?_, ?_, ?_, fun hp => ?_, fun hp => ?_⟩
  · rw [hreturned]
    simp [World.bodyRecord, herrors, hworld, env']
  · rw [World.runTest_eq stamp files now t hlist hcreate]
    unfold World.runUncleaned
    rw [hbody, hworld]
    rfl
  · rw [World.runTest_eq stamp files now t hlist hcreate]
    exact hfinished.trans (congrArg Prod.snd (hworld {}))
  · exact FatalityPolicy.Stops.default_left (hp ▸ hstops) fun found hf e he =>
      World.isSetup_of_takeSteps hf he
  · exact FatalityPolicy.Stops.abort_left (hp ▸ hstops)

def timerCall (action : String) : MeasurementCall where
  method := "Timer"
  identifier := "x"
  params := .ofList [("action", .text action), ("label", .text "l")]

/-- A step that starts a timer, one that fails, and one that would stop the timer. -/
def sampleSequence : LoadTest where
  name := "t"
  steps := [
    { measurements := [timerCall "start"] },
    { measurements := [{ method := "Unknown", identifier := "y" }] },
    { measurements := [timerCall "stop"] }]

def abortingEnvironment : Environment :=
  { sampleEnvironment with settings := { policy := .abortOnAnyError } }

theorem steps_up_to_critical_sampleSequence :
    probedWorld.testRecord abortingEnvironment toString {} 0 sampleSequence =
      { steps := [{}, ⟨[.measurement "Unknown" "y" (.unknownMethod "Unknown")]⟩] } ∧
    ∃ done left returned w' finished,
      sampleSequence.steps = done ++ left ∧
      (probedWorld.begun "run" sampleSequence).takeSteps
        { abortingEnvironment with tuningSets := .ofList [] } 0 done = (returned, w', finished) ∧
      (∀ found ∈ returned.dropLast, found.errors = []) ∧
      (left ≠ [] → ∃ found, returned.getLast? = some found ∧ found.errors ≠ []) := by
  refine ⟨by decide +kernel, ?_⟩
  obtain ⟨-, done, left, returned, w', finished, hsteps, htaken, -, -, -, -, -, habort⟩ :=
    steps_up_to_critical probedWorld abortingEnvironment toString {} 0 sampleSequence
      (by decide +kernel) (by decide +kernel) (by decide +kernel)
  exact ⟨done, left, returned, w', finished, hsteps, htaken, habort rfl⟩

end ReplicaLoad

-- The errors of a step. Where every error of a step comes from: an operation on
-- a replica, the call of a measurement, a unit of work that crashed, or a phase
-- that cannot begin. None of them is an error of the setup of a test, whatever
-- the step does and in whatever world.
import ReplicaLoad.Proofs.CallRuns
import ReplicaLoad.Proofs.PhaseLanes

namespace ReplicaLoad

namespace RunError

/-- Whether an error tells of an operation, of a call, or of a unit of work that crashed. -/
def isWork : RunError → Bool
  | template _ _ => true
  | templateForDeletion _ _ => true
  | create _ _ _ => true
  | patch _ _ _ => true
  | delete _ _ _ => true
  | resourceVersion _ _ _ => true
  | measurement _ _ _ => true
  | task _ _ => true
  | _ => false

theorem isSetup_of_isWork {e : RunError} (h : e.isWork = true) : e.isSetup = false := by
  cases e with
  | namespaceListing => cases h
  | preexistingNamespaces => cases h
  | namespaceCreation => cases h
  | missing => cases h
  | _ => rfl

end RunError

/-! ## Operations -/

/-- A request that cannot be made fails in its template. -/
theorem Environment.request_error {env : Environment} {o : ObjectTemplate} {i : Nat}
    {op : Operation} {e : RunError} (h : env.request o i op = .error e) :
    ∃ path problem, e = .template path problem ∨ e = .templateForDeletion path problem := by
  unfold Environment.request at h
  split at h
  · split at h <;> cases h
    exact ⟨_, _, .inr rfl⟩
  · split at h <;> cases h
    exact ⟨_, _, .inl rfl⟩
  · split at h <;> cases h
    exact ⟨_, _, .inl rfl⟩

namespace World

theorem isWork_of_record {w : World} {ns name : String} {o : Object} {e : RunError}
    (h : (w.record ns name o).1 = some e) : e.isWork = true := by
  unfold record at h
  split at h <;> cases h
  rfl

theorem isWork_of_send {w : World} {client : Client} {ns name : String} {r : Request} {e : RunError}
    (h : (w.send client ns name r).1 = some e) : e.isWork = true := by
  cases r with
  | create o =>
    unfold send at h
    dsimp only at h
    split at h
    · exact isWork_of_record h
    · cases h
      rfl
  | patch o =>
    unfold send at h
    dsimp only at h
    split at h
    · exact isWork_of_record h
    · cases h
      rfl
  | delete gvk =>
    unfold send at h
    dsimp only at h
    split at h
    · cases h
    · cases h
      rfl

theorem isWork_of_perform {w : World} {env : Environment} {a : Action} {op : ObjectOperation}
    {e : RunError} (h : (w.perform env a op).error = some e) : e.isWork = true := by
  rcases w.perform_cases env a op with ⟨e', hr, he', -⟩ | ⟨_, _, -, -, he', -⟩ | ⟨r, -, -, he', -⟩
  · rw [h] at he'
    cases he'
    obtain ⟨path, problem, rfl | rfl⟩ := Environment.request_error hr
    · rfl
    · rfl
  · rw [h] at he'
    cases he'
    rfl
  · rw [h] at he'
    exact isWork_of_send he'.symm

end World

/-! ## Phases -/

/-- An error that phases can record: of their work, or of one of them that cannot begin. -/
def Environment.Blames (env : Environment) (phases : List Phase) (e : RunError) : Prop :=
  e.isWork = true ∨ ∃ p ∈ phases, env.ready p = .error e

variable {env : Environment} {phases : List Phase}

theorem Environment.identifyAll_error {os : List ObjectTemplate} {e : RunError}
    (h : env.identifyAll os = .error e) : ∃ path problem, e = .identifier path problem := by
  induction os with
  | nil => cases h
  | cons o rest ih =>
    unfold Environment.identifyAll at h
    split at h
    · rename_i hid
      cases h
      unfold Environment.identify at hid
      split at hid
      · cases hid
      · cases hid
        exact ⟨_, _, rfl⟩
    · split at h
      · rename_i hrest
        cases h
        exact ih hrest
      · cases h

/-- A phase that cannot begin cannot use its tuning set, or cannot identify a template. -/
theorem Environment.ready_error {p : Phase} {e : RunError} (h : env.ready p = .error e) :
    (∃ problem, e = .tuningSet problem ∧ env.tuningSets.select p.tuningSet = .error problem) ∨
      ∃ path problem, e = .identifier path problem := by
  unfold Environment.ready at h
  split at h
  · cases h
  · split at h
    · rename_i problem hs
      cases h
      exact .inl ⟨problem, rfl, hs⟩
    · split at h
      · rename_i hi
        cases h
        exact .inr (Environment.identifyAll_error hi)
      · cases h

namespace PhaseState

/-- A phase that has not begun is one of some phases, and all that has been recorded is their own. -/
structure BlamedOn (env : Environment) (phases : List Phase) (q : PhaseState) : Prop where
  waiting : ∀ p, q = .waiting p → p ∈ phases
  errors : ∀ e ∈ q.errors, env.Blames phases e

variable {q q' : PhaseState} {w w' : World}

theorem errors_dispatch (load : Load) (actions : List Action)
    (commits : List (GroupKey × Instances)) : (dispatch load actions commits).errors = [] :=
  dispatch_induction (P := (·.errors = [])) rfl fun _ => rfl

theorem errors_enrol (r : ReadyPhase) : r.enrol.errors = [] := by
  unfold ReadyPhase.enrol
  split
  · exact errors_dispatch _ _ _
  · rfl

theorem errors_next (e : Enrolment) : e.next.errors = [] := by
  unfold Enrolment.next
  split
  · exact errors_dispatch _ _ _
  · rfl

/-- A step records at most one error: why the phase cannot begin, or how an operation has failed. -/
theorem Step.mem_errors (hs : Step env env.performs w q w' q') {e : RunError}
    (he : e ∈ q'.errors) : e ∈ q.errors ∨ (∃ p, q = .waiting p ∧ env.ready p = .error e) ∨
      ∃ a op, (w.perform env a op).error = some e := by
  cases hs with
  | @refuse p e' hr =>
    rw [List.mem_singleton.mp he]
    exact .inr (.inl ⟨p, rfl, hr⟩)
  | idle => cases he
  | enrol =>
    rw [errors_enrol] at he
    cases he
  | read => cases he
  | write => cases he
  | next =>
    rw [errors_next] at he
    cases he
  | @operate errors before a op rest after commits done _ hdone =>
    obtain rfl : done = w.perform env a op := hdone
    rcases List.mem_append.mp he with he | he
    · exact .inl he
    · exact .inr (.inr ⟨a, op, Option.mem_toList.mp he⟩)
  | finish => exact .inl he
  | settle => exact .inl he
  | commit => exact .inl he
  | leave => exact .inl he

theorem dispatch_ne_waiting (load : Load) (actions : List Action)
    (commits : List (GroupKey × Instances)) (p : Phase) :
    dispatch load actions commits ≠ .waiting p :=
  dispatch_induction (P := (· ≠ .waiting p)) nofun fun _ => nofun

/-- No step leads back to before the beginning. -/
theorem Step.not_waiting (hs : Step env env.performs w q w' q') (p : Phase) : q' ≠ .waiting p := by
  cases hs with
  | @enrol p r =>
    unfold ReadyPhase.enrol
    split
    · exact dispatch_ne_waiting _ _ _ _
    · exact nofun
  | @next e =>
    unfold Enrolment.next
    split
    · exact dispatch_ne_waiting _ _ _ _
    · exact nofun
  | _ => exact nofun

theorem Step.blamedOn (hs : Step env env.performs w q w' q') (h : q.BlamedOn env phases) :
    q'.BlamedOn env phases where
  waiting := fun p hp => absurd hp (hs.not_waiting p)
  errors := by
    intro e he
    rcases hs.mem_errors he with he | ⟨p, hp, hr⟩ | ⟨a, op, he⟩
    · exact h.errors e he
    · exact .inr ⟨p, h.waiting p hp, hr⟩
    · exact .inl (World.isWork_of_perform he)

end PhaseState

/-- What every step of a phase keeps of it holds of all phases in every interleaving. -/
theorem Interleaving.forall_of_reaches {may : Outcomes} {P : PhaseState → Prop}
    (hstep : ∀ w q w' q', PhaseState.Step env may w q w' q' → P q → P q') {t t' : Interleaving}
    (hr : Reaches env may t t') (h : ∀ q ∈ t.phases, P q) : ∀ q ∈ t'.phases, P q := by
  induction hr with
  | refl => exact h
  | tail _ hs ih =>
    -- the step is that of one phase, and the others are as they were
    obtain @⟨w, w', before, q, q', after, commits, hq⟩ := hs
    intro x hx
    rcases List.mem_append.mp hx with hx | hx
    · exact ih x (by simp [hx])
    · rcases List.mem_cons.mp hx with rfl | hx
      · exact hstep _ _ _ _ hq (ih q (by simp))
      · exact ih x (by simp [hx])

/-- Phases beside each other return only errors of their own. -/
theorem World.blames_of_runPhases {w : World} {step : String} {now : Millis} {e : RunError}
    (h : e ∈ (w.runPhases env step now phases).1.errors) : env.Blames phases e := by
  obtain ⟨t, hr, -, -, hperm⟩ := Interleaving.runPhases_reached env step w now phases
  rcases Interleaving.mem_errors (hperm.mem_iff.mp h) with ⟨q, hq, he⟩ | ⟨index, reason, rfl⟩
  · refine (Interleaving.forall_of_reaches (P := (·.BlamedOn env phases))
      (fun _ _ _ _ hs => hs.blamedOn) hr (fun q hq => ?_) q hq).errors e he
    obtain ⟨p, hp, rfl⟩ := List.mem_map.mp hq
    exact ⟨fun p' hp' => PhaseState.waiting.inj hp' ▸ hp, fun _ h => nomatch h⟩
  -- a crash is an error of the work
  · exact .inl rfl

/-! ## Calls of measurements -/

section Crew

variable {ω τ : Type} {crew : Crew ω τ} {P : ω → Prop}

/-- What no turn of a job and no end of a lane takes from a world. -/
structure Crew.Keeps (crew : Crew ω τ) (P : ω → Prop) : Prop where
  turn : ∀ now lane job world, P world → P (crew.turn now lane job world).1
  close : ∀ now lane world, P world → P (crew.close now lane world)

namespace Crew.Keeps

variable {t t' : Timeline ω τ}

theorem starterTurn (h : crew.Keeps P) (ht : P t.world) (i : Nat) (l : Lane τ)
    (waiting : List (Pending τ)) : P (Timeline.starterTurn crew t i l waiting).world := by
  cases waiting with
  | nil =>
    simp only [Timeline.starterTurn]
    split
    · exact h.close _ _ _ ht
    · exact ht
  | cons p rest =>
    simp only [Timeline.starterTurn]
    split
    · exact ht
    · split
      · exact ht
      · split
        · exact ht
        · exact ht

theorem jobTurn (h : crew.Keeps P) (ht : P t.world) (i : Nat) (l : Lane τ) (state : τ) :
    P (Timeline.jobTurn crew t i l state).world := by
  have hturn := h.turn t.now i state t.world ht
  unfold Timeline.jobTurn
  dsimp only
  split
  · split
    · exact hturn
    · exact hturn
  · split
    · exact hturn
    · exact hturn

theorem step (h : crew.Keeps P) (ht : P t.world) (hs : t.step crew = some t') : P t'.world := by
  -- a token that is taken from the ready ones leaves the world as it is
  have hready (rest : List (Token τ)) : P { t with ready := rest }.world := ht
  unfold Timeline.step at hs
  split at hs
  · cases hs
    split
    · exact h.starterTurn (hready _) _ _ _
    · exact ht
  · cases hs
    split
    · exact h.jobTurn (hready _) _ _ _
    · exact ht
  · obtain ⟨time, -, rfl⟩ := Option.map_eq_some_iff.mp hs
    exact ht

/-- So a run keeps it, however many steps it takes. -/
theorem run (h : crew.Keeps P) {world : ω} (hw : P world) (size : τ → Nat) (now : Millis)
    (lanes : List (Pacing × List τ)) : P (crew.run size now lanes world).world := by
  have hsteps (n : Nat) (t : Timeline ω τ) (ht : P t.world) : P (t.steps crew n).world := by
    induction n generalizing t with
    | zero => exact ht
    | succ n ih =>
      unfold Timeline.steps
      split
      · exact ht
      · rename_i hs
        exact ih _ (h.step ht hs)
  exact hsteps _ _ hw

end Crew.Keeps

end Crew

namespace CallRun

def IsWork (s : CallRun) : Prop := ∀ e ∈ s.errors.errors, e.isWork = true

variable {s : CallRun}

theorem IsWork.append (h : s.IsWork) {e : RunError} (he : e.isWork = true) :
    IsWork { s with errors := s.errors.append e } := by
  intro e' he'
  rcases List.mem_append.mp he' with he' | he'
  · exact h e' he'
  · rwa [List.mem_singleton.mp he']

theorem IsWork.finish (h : s.IsWork) (step : String) (index : Nat) (m : MeasurementCall)
    (outcome : CallOutcome) : (s.finish step index m outcome).IsWork := by
  cases outcome with
  | summaries list => exact h
  | error e => exact h.append rfl
  | crash reason => exact h.append rfl

theorem keeps_isWork (step : String) : (callCrew step).Keeps IsWork where
  close := fun _ _ _ h => h
  turn := by
    intro now lane job s h
    have hturned := s.turned step now job
    change (s.turn step now job).1.IsWork
    generalize s.turn step now job = result at hturned
    cases hturned with
    | finish index m outcome => exact h.finish step index m outcome
    -- a call that finds its instance taken only waits
    | retry => exact h
    | atOnce index m =>
      have hcalled : (s.called now m).IsWork := h
      exact hcalled.finish step index m _
    | take => exact h

end CallRun

theorem World.isWork_of_callAll {w : World} {step : String} {now : Millis}
    {calls : List MeasurementCall} {e : RunError} (h : e ∈ (w.callAll step now calls).1.errors) :
    e.isWork = true := by
  have hstart : CallRun.IsWork { measurements := w.measurements } := nofun
  exact (CallRun.keeps_isWork step).run hstart _ now _ e h

/-! ## Steps -/

/-- A step returns errors of its work, and of phases of its own that cannot begin. -/
theorem World.blames_of_runStep {w : World} {now : Millis} {s : Step} {e : RunError}
    (h : e ∈ (w.runStep env now s).1.errors) : env.Blames s.phases e := by
  unfold runStep at h
  split at h
  · exact blames_of_runPhases h
  · exact .inl (isWork_of_callAll h)

/-- No step returns an error of the setup. -/
theorem World.isSetup_of_runStep {w : World} {now : Millis} {s : Step} {e : RunError}
    (h : e ∈ (w.runStep env now s).1.errors) : e.isSetup = false := by
  rcases blames_of_runStep h with hw | ⟨p, -, hr⟩
  · exact RunError.isSetup_of_isWork hw
  · rcases Environment.ready_error hr with ⟨problem, rfl, -⟩ | ⟨path, problem, rfl⟩
    · rfl
    · rfl

end ReplicaLoad

-- Units of a step. The calls or the phases of a step beside each other, one
-- small step at a time. A unit that returns puts its errors into the list of
-- the step, and a unit that crashes leaves that to the step, which waits for
-- each of its units. Whichever unit can move may move next. When all units have
-- been waited for, the list holds what each of them has returned, and one error
-- for each that has crashed.
import Mathlib.Data.List.Forall2
import ReplicaLoad.Proofs.Interleaving
import ReplicaLoad.Run.Step

namespace ReplicaLoad

/-! ## One unit -/

/-- The end of a unit that calls a measurement. -/
def UnitEnd.ofOutcome (m : MeasurementCall) : CallOutcome → UnitEnd
  | .summaries _ => .returned []
  | .error e => .returned [.measurement m.method m.identifier e]
  | .crash reason => .crashed reason

/-- The commits that a phase makes when it crashes. -/
def PhaseState.deferred : PhaseState → List (GroupKey × Instances)
  | .waiting _ => []
  | .reading e => e.entered
  | .writing e _ _ _ => e.entered
  | .acting _ _ commits => commits
  | .committing _ commits => commits
  | .ended _ => []

/-- What a unit has still to do. -/
inductive StepUnit where
  | call (m : MeasurementCall)
  /-- The measurement has answered, and nothing of that is recorded. -/
  | answered (m : MeasurementCall) (outcome : CallOutcome)
  | phase (q : PhaseState)
  | crashing (reason : String)
  /-- The unit has recorded its errors, and the step has not waited for it. -/
  | ended (e : UnitEnd)
  | joined (e : UnitEnd)

namespace StepUnit

/-- The steps that a unit can take on its own, with the world before and after each. Whether or not
its tuning set can start the actions, a phase can crash at any moment before it has returned. -/
inductive Advance (env : Environment) (may : Outcomes) : World → StepUnit → World → StepUnit → Prop
  | call {w m} (now : Millis) :
      Advance env may w (.call m)
        { w with measurements := (w.measurements.call now m.method m.identifier m.params).1 }
        (.answered m (w.measurements.call now m.method m.identifier m.params).2.2)
  | phase {w q w' q'} (h : PhaseState.Step env may w q w' q') :
      Advance env may w (.phase q) w' (.phase q')
  | crash {w q} (reason : String) (h : q.isEnded = false) (hfirst : q.outcome.crash? = none) :
      Advance env may w (.phase q) { w with instances := w.instances.commit q.deferred }
        (.crashing reason)

/-- The end of a unit that has nothing more to do than to record it. -/
def end? : StepUnit → Option UnitEnd
  | .answered m outcome => some (.ofOutcome m outcome)
  | .phase (.ended e) => some e
  | .crashing reason => some (.crashed reason)
  | _ => none

/-- The world after the end of a unit. -/
def leave (w : World) : StepUnit → World
  | .answered _ outcome => { w with measurements := w.measurements.collect outcome }
  | _ => w

/-- What a unit can become while the units beside it do to the world whatever they like. -/
abbrev Runs (env : Environment) (may : Outcomes) : StepUnit → StepUnit → Prop :=
  Relation.ReflTransGen fun u u' => ∃ w w', Advance env may w u w' u'

/-- How a unit can end. -/
def Ends (env : Environment) (may : Outcomes) (u : StepUnit) (e : UnitEnd) : Prop :=
  ∃ u', Runs env may u u' ∧ u'.end? = some e

def isJoined : StepUnit → Bool
  | .joined _ => true
  | _ => false

/-- Whether a unit has not yet recorded its end. -/
def isRunning : StepUnit → Bool
  | .ended _ => false
  | .joined _ => false
  | _ => true

/-- What the list of the step holds of a unit. -/
def recorded (step : String) (index : Nat) : StepUnit → List RunError
  | .ended e => e.own
  | .joined e => e.errors step index
  | _ => []

variable {env : Environment} {may : Outcomes} {w w' : World} {u u' : StepUnit} {e : UnitEnd}

theorem recorded_of_isRunning (step : String) (index : Nat) (h : u.isRunning = true) :
    u.recorded step index = [] := by
  cases u with
  | ended => cases h
  | joined => cases h
  | _ => rfl

theorem Advance.isRunning (h : Advance env may w u w' u') :
    u.isRunning = true ∧ u'.isRunning = true := by
  cases h with
  | call => exact ⟨rfl, rfl⟩
  | phase => exact ⟨rfl, rfl⟩
  | crash => exact ⟨rfl, rfl⟩

theorem isRunning_of_end? (h : u.end? = some e) : u.isRunning = true := by
  cases u with
  | ended => cases h
  | joined => cases h
  | _ => rfl

end StepUnit

/-- The units of a step: its calls, and its phases only if it has no calls. -/
def Step.units (s : Step) : List StepUnit :=
  if s.measurements.isEmpty then s.phases.map fun p => .phase (.waiting p)
  else s.measurements.map .call

/-! ## The units of a step -/

/-- A step at a moment. -/
structure StepRun where
  world : World
  units : List StepUnit
  /-- The list that all units share. -/
  errors : List RunError := []

namespace StepRun

def start (w : World) (s : ReplicaLoad.Step) : StepRun := ⟨w, s.units, []⟩

/-- The steps that the unit at a position can take. -/
inductive Advance (env : Environment) (may : Outcomes) (step : String) :
    Nat → StepRun → StepRun → Prop
  | move {w w' before u u' after errors} (h : StepUnit.Advance env may w u w' u') :
      Advance env may step before.length ⟨w, before ++ u :: after, errors⟩
        ⟨w', before ++ u' :: after, errors⟩
  | record {w before u e after errors} (h : u.end? = some e) :
      Advance env may step before.length ⟨w, before ++ u :: after, errors⟩
        ⟨u.leave w, before ++ .ended e :: after, errors ++ e.own⟩
  | join {w before e after errors} :
      Advance env may step before.length ⟨w, before ++ .ended e :: after, errors⟩
        ⟨w, before ++ .joined e :: after, errors ++ e.noticed step before.length⟩

/-- Any unit can take the next step. -/
def Next (env : Environment) (may : Outcomes) (step : String) (t t' : StepRun) : Prop :=
  ∃ i, Advance env may step i t t'

/-- The moments that some order of the steps leads to. -/
abbrev Reaches (env : Environment) (may : Outcomes) (step : String) : StepRun → StepRun → Prop :=
  Relation.ReflTransGen (Next env may step)

/-- All units have been waited for. -/
def Complete (t : StepRun) : Prop := ∀ u ∈ t.units, u.isJoined = true

end StepRun

/-! ## What the list of the step holds -/

/-- What the list of a step holds of all its units. -/
def recordedAll (step : String) (units : List StepUnit) : List RunError :=
  units.zipIdx.flatMap fun (u, i) => u.recorded step i

/-- A unit that records more adds it to the list. -/
theorem recordedAll_perm {step : String} {before after : List StepUnit} {u u' : StepUnit}
    {more : List RunError}
    (h : u'.recorded step before.length = u.recorded step before.length ++ more) :
    (recordedAll step (before ++ u :: after) ++ more).Perm
      (recordedAll step (before ++ u' :: after)) :=
  flatMap_zipIdx_perm h

theorem forall₂_middle {α β : Type} {R : α → β → Prop} {as : List α} {before after : List β}
    {b b' : β} (h : List.Forall₂ R as (before ++ b :: after)) (hb : ∀ a, R a b → R a b') :
    List.Forall₂ R as (before ++ b' :: after) := by
  induction before generalizing as with
  | nil =>
    cases h with
    | cons first rest => exact .cons (hb _ first) rest
  | cons c before ih =>
    cases h with
    | cons first rest => exact .cons first (ih rest)

namespace StepUnit

/-- What a unit can be at a moment, told by what it was at the beginning of the step. -/
inductive From (env : Environment) (may : Outcomes) (u : StepUnit) : StepUnit → Prop
  | running {u'} (h : Runs env may u u') (hr : u'.isRunning = true) : From env may u u'
  | ended {e} (h : Ends env may u e) : From env may u (.ended e)
  | joined {e} (h : Ends env may u e) : From env may u (.joined e)

variable {env : Environment} {may : Outcomes} {w w' : World} {u₀ u u' : StepUnit} {e : UnitEnd}

theorem From.advance (h : From env may u₀ u) (hs : Advance env may w u w' u') :
    From env may u₀ u' := by
  cases h with
  | running h => exact .running (h.tail ⟨_, _, hs⟩) hs.isRunning.2
  | ended => cases hs
  | joined => cases hs

theorem From.record (h : From env may u₀ u) (he : u.end? = some e) :
    From env may u₀ (.ended e) := by
  cases h with
  | running h => exact .ended ⟨u, h, he⟩
  | ended => cases he
  | joined => cases he

theorem From.join (h : From env may u₀ (.ended e)) : From env may u₀ (.joined e) := by
  cases h with
  | running _ hr => cases hr
  | ended h => exact .joined h

theorem From.ends (h : From env may u₀ (.joined e)) : Ends env may u₀ e := by
  cases h with
  | running _ hr => cases hr
  | joined h => exact h

end StepUnit

namespace StepRun

variable {env : Environment} {may : Outcomes} {step : String} {units : List StepUnit}
  {t t' : StepRun}

/-- Every unit has come from its own beginning, and the list holds what has been recorded of each. -/
structure Coherent (env : Environment) (may : Outcomes) (step : String) (units : List StepUnit)
    (t : StepRun) : Prop where
  units : List.Forall₂ (StepUnit.From env may) units t.units
  errors : t.errors.Perm (recordedAll step t.units)

theorem coherent_start (w : World) (hunits : ∀ u ∈ units, u.isRunning = true) :
    Coherent env may step units ⟨w, units, []⟩ where
  units := List.forall₂_same.mpr fun u hu => .running .refl (hunits u hu)
  errors := by
    have hnone : recordedAll step units = [] := by
      refine List.flatMap_eq_nil_iff.mpr fun x hx => ?_
      exact StepUnit.recorded_of_isRunning step x.2 (hunits x.1 (List.fst_mem_of_mem_zipIdx hx))
    rw [hnone]

/-- The step of one unit adds to the list what it adds to what is recorded of the unit. -/
theorem Coherent.next (h : Coherent env may step units t) (hs : Next env may step t t') :
    Coherent env may step units t' := by
  obtain ⟨i, hs⟩ := hs
  cases hs with
  | @move w w' before u u' after errors hu =>
    -- nothing is recorded of a unit before its end
    have hnone := StepUnit.recorded_of_isRunning step before.length hu.isRunning.1
    have hnone' := StepUnit.recorded_of_isRunning step before.length hu.isRunning.2
    refine ⟨forall₂_middle h.units fun _ hfrom => hfrom.advance hu, h.errors.trans ?_⟩
    have hperm : (recordedAll step (before ++ u :: after) ++ []).Perm
        (recordedAll step (before ++ u' :: after)) :=
      recordedAll_perm (by rw [hnone, hnone', List.append_nil])
    rwa [List.append_nil] at hperm
  | @record w before u e after errors he =>
    have hnone := StepUnit.recorded_of_isRunning step before.length
      (StepUnit.isRunning_of_end? he)
    refine ⟨forall₂_middle h.units fun _ hfrom => hfrom.record he, ?_⟩
    refine (h.errors.append_right _).trans (recordedAll_perm ?_)
    rw [hnone]
    rfl
  | @join w before e after errors =>
    refine ⟨forall₂_middle h.units fun _ hfrom => hfrom.join, ?_⟩
    refine (h.errors.append_right _).trans (recordedAll_perm ?_)
    exact (e.own_append_noticed step before.length).symm

theorem Coherent.reaches (h : Coherent env may step units t) (hr : Reaches env may step t t') :
    Coherent env may step units t' := by
  induction hr with
  | refl => exact h
  | tail _ hs ih => exact ih.next hs

theorem Complete.exists_ends (h : t.Complete) : ∃ ends : List UnitEnd, t.units = ends.map .joined := by
  obtain ⟨w, units, errors⟩ := t
  unfold Complete at h
  dsimp only at h ⊢
  induction units with
  | nil => exact ⟨[], rfl⟩
  | cons u rest ih =>
    obtain ⟨ends, rfl⟩ := ih fun u hu => h u (List.mem_cons_of_mem _ hu)
    have hu := h u List.mem_cons_self
    cases u with
    | joined e => exact ⟨e :: ends, rfl⟩
    | _ => cases hu

theorem recordedAll_joined (step : String) (ends : List UnitEnd) :
    recordedAll step (ends.map .joined) = united step ends := by
  unfold recordedAll united
  rw [List.zipIdx_map, List.flatMap_map]
  rfl

/-- When all units have been waited for, the list holds the errors that the step has from each of
them. -/
theorem Coherent.complete (h : Coherent env may step units t) (hc : t.Complete) :
    ∃ ends : List UnitEnd, t.units = ends.map .joined ∧
      List.Forall₂ (StepUnit.Ends env may) units ends ∧ t.errors.Perm (united step ends) := by
  obtain ⟨ends, hends⟩ := hc.exists_ends
  obtain ⟨hunits, herrors⟩ := h
  rw [hends, recordedAll_joined] at herrors
  rw [hends, List.forall₂_map_right_iff] at hunits
  exact ⟨ends, hends, hunits.imp fun _ _ hfrom => hfrom.ends, herrors⟩

end StepRun

end ReplicaLoad

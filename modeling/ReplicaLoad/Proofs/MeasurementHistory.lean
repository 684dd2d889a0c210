-- Histories of measurements. Calls of measurements and takings of their
-- summaries, one after another, from a manager without instances on. Every
-- instance is what its own calls alone have made of a fresh one, whatever has
-- been called beside it, and every summary that a call returns is taken exactly
-- once or still waits.
import Mathlib.Data.List.Induction
import ReplicaLoad.LoadTest.Basic
import ReplicaLoad.Measurement.Basic

namespace ReplicaLoad

/-- Something that happens to a manager. -/
inductive ManagerEvent where
  | call (now : Millis) (c : MeasurementCall)
  | take

/-- The instance that a call reaches. -/
def MeasurementCall.key (c : MeasurementCall) : InstanceKey := (c.method, c.identifier)

/-- The summaries that a call has returned. -/
def CallOutcome.returned : CallOutcome → List Summary
  | .summaries list => list
  | .error _ => []
  | .crash _ => []

namespace ManagerEvent

/-- The time and the parameters of a call that reaches an instance. -/
def callOn? (key : InstanceKey) : ManagerEvent → Option (Millis × Dict)
  | .call now c => if c.key = key then some (now, c.params) else none
  | .take => none

end ManagerEvent

/-- The calls of a history that reach an instance. -/
def callsOn (key : InstanceKey) (history : List ManagerEvent) : List (Millis × Dict) :=
  history.filterMap (ManagerEvent.callOn? key)

/-! ## One instance alone -/

namespace Method

variable {ι : Type}

/-- A fresh instance that some calls have been made on. -/
def fed (f : Method ι) (calls : List (Millis × Dict)) : ι :=
  calls.foldl (fun state c => (f.call c.1 c.2 state).state) f.fresh

theorem fed_append (f : Method ι) (calls : List (Millis × Dict)) (c : Millis × Dict) :
    f.fed (calls ++ [c]) = (f.call c.1 c.2 (f.fed calls)).state := by
  simp [fed, List.foldl_append]

end Method

/-! ## The manager -/

namespace Measurements

variable {ι : Type}

/-- A call from its beginning to its end, with how long it takes and how it ends. -/
def execute (m : Measurements ι) (now : Millis) (c : MeasurementCall) :
    Measurements ι × Nanos × CallOutcome :=
  let (m, lasts, outcome) := m.call now c.method c.identifier c.params
  (m.collect outcome, lasts, outcome)

def after (m : Measurements ι) : ManagerEvent → Measurements ι
  | .call now c => (m.execute now c).1
  | .take => m.take.2

def afterAll (m : Measurements ι) (history : List ManagerEvent) : Measurements ι :=
  history.foldl after m

/-- What the calls of a history return, in their order. -/
def returned (m : Measurements ι) : List ManagerEvent → List Summary
  | [] => []
  | .call now c :: rest => (m.execute now c).2.2.returned ++ (m.after (.call now c)).returned rest
  | .take :: rest => (m.after .take).returned rest

/-- What is taken in a history, in its order. -/
def taken (m : Measurements ι) : List ManagerEvent → List Summary
  | [] => []
  | .call now c :: rest => (m.after (.call now c)).taken rest
  | .take :: rest => m.take.1 ++ (m.after .take).taken rest

/-- How a call after a history ends if its instance has seen no other calls than its own. -/
def aloneAfter (m : Measurements ι) (history : List ManagerEvent) (now : Millis)
    (c : MeasurementCall) : Nanos × CallOutcome :=
  match m.methods.get? c.method with
  | none => (0, .error (.unknownMethod c.method))
  | some f =>
    let reply := f.call now c.params (f.fed (callsOn c.key history))
    (reply.lasts, reply.outcome)

/-- The instance that the calls of a history have left under a key. -/
def instanceAfter (m : Measurements ι) (history : List ManagerEvent) (key : InstanceKey) :
    Option ι :=
  match m.methods.get? key.1, callsOn key history with
  | none, _ => none
  | some _, [] => none
  | some f, calls => some (f.fed calls)

@[simp] theorem methods_collect (m : Measurements ι) (o : CallOutcome) :
    (m.collect o).methods = m.methods := by
  cases o <;> rfl

@[simp] theorem instances_collect (m : Measurements ι) (o : CallOutcome) :
    (m.collect o).instances = m.instances := by
  cases o <;> rfl

@[simp] theorem pending_collect (m : Measurements ι) (o : CallOutcome) :
    (m.collect o).pending = m.pending ++ o.returned := by
  cases o with
  | summaries list => rfl
  | error e => simp [collect, CallOutcome.returned]
  | crash reason => simp [collect, CallOutcome.returned]

@[simp] theorem methods_call (m : Measurements ι) (now : Millis) (method identifier : String)
    (params : Dict) : (m.call now method identifier params).1.methods = m.methods := by
  unfold call
  split
  · rfl
  · rfl

@[simp] theorem pending_call (m : Measurements ι) (now : Millis) (method identifier : String)
    (params : Dict) : (m.call now method identifier params).1.pending = m.pending := by
  unfold call
  split
  · rfl
  · rfl

@[simp] theorem methods_after (m : Measurements ι) (e : ManagerEvent) :
    (m.after e).methods = m.methods := by
  cases e with
  | call now c => simp [after, execute]
  | take => rfl

@[simp] theorem methods_afterAll (m : Measurements ι) (history : List ManagerEvent) :
    (m.afterAll history).methods = m.methods := by
  induction history generalizing m with
  | nil => rfl
  | cons e rest ih => exact (ih _).trans (m.methods_after e)

/-! ## The instances -/

/-- A call of a registered method changes the instance under its own key only. -/
theorem get?_instances_execute (m : Measurements ι) (now : Millis) (c : MeasurementCall)
    (key : InstanceKey) {f : Method ι} (known : m.methods.get? c.method = some f) :
    (m.execute now c).1.instances.get? key =
      if c.key = key then
        some (f.call now c.params ((m.instances.get? c.key).getD f.fresh)).state
      else m.instances.get? key := by
  simp only [execute, call, known, instances_collect, Table.get?_put]
  rfl

/-- A call of an unknown method fails and leaves the manager as it is. -/
theorem execute_unknown (m : Measurements ι) (now : Millis) (c : MeasurementCall)
    (unknown : m.methods.get? c.method = none) :
    m.execute now c = (m, 0, .error (.unknownMethod c.method)) := by
  simp [execute, call, unknown, collect]

theorem callsOn_append (key : InstanceKey) (history : List ManagerEvent) (e : ManagerEvent) :
    callsOn key (history ++ [e]) = callsOn key history ++ (e.callOn? key).toList := by
  cases h : e.callOn? key <;> simp [callsOn, h]

theorem instanceAfter_of_known (m : Measurements ι) (history : List ManagerEvent)
    (key : InstanceKey) {f : Method ι} (known : m.methods.get? key.1 = some f) :
    (m.instanceAfter history key).getD f.fresh = f.fed (callsOn key history) := by
  cases h : callsOn key history with
  | nil => simp [instanceAfter, known, h, Method.fed]
  | cons c calls => simp [instanceAfter, known, h]

theorem instanceAfter_unknown (m : Measurements ι) (history : List ManagerEvent)
    (key : InstanceKey) (unknown : m.methods.get? key.1 = none) :
    m.instanceAfter history key = none := by
  simp [instanceAfter, unknown]

/-- What does not reach an instance leaves it as it is. -/
theorem instanceAfter_append_other (m : Measurements ι) (history : List ManagerEvent)
    (e : ManagerEvent) (key : InstanceKey) (other : e.callOn? key = none) :
    m.instanceAfter (history ++ [e]) key = m.instanceAfter history key := by
  simp [instanceAfter, callsOn_append, other]

theorem instanceAfter_append_call (m : Measurements ι) (history : List ManagerEvent)
    (now : Millis) (c : MeasurementCall) {f : Method ι}
    (known : m.methods.get? c.method = some f) :
    m.instanceAfter (history ++ [.call now c]) c.key =
      some (f.call now c.params (f.fed (callsOn c.key history))).state := by
  have reached : (ManagerEvent.call now c).callOn? c.key = some (now, c.params) := by
    simp [ManagerEvent.callOn?]
  have known' : m.methods.get? c.key.1 = some f := known
  cases h : callsOn c.key history with
  | nil => simp [instanceAfter, callsOn_append, reached, known', h, Method.fed]
  | cons first calls =>
    have fed := f.fed_append (first :: calls) (now, c.params)
    simp [instanceAfter, callsOn_append, reached, known', h, ← fed]

/-- Every instance is what its own calls have made of a fresh one. -/
theorem get?_instances_afterAll (m : Measurements ι) (history : List ManagerEvent)
    (key : InstanceKey) :
    (m.dispose.afterAll history).instances.get? key = m.instanceAfter history key := by
  -- the last event is the one that has happened to the manager, so the history shrinks from its end
  induction history using List.reverseRecOn generalizing key with
  | nil => cases h : m.methods.get? key.1 <;> simp [afterAll, dispose, instanceAfter, callsOn, h]
  | append_singleton history e ih =>
    have last : m.dispose.afterAll (history ++ [e]) = (m.dispose.afterAll history).after e := by
      simp [afterAll, List.foldl_append]
    have methods : (m.dispose.afterAll history).methods = m.methods :=
      m.dispose.methods_afterAll history
    rw [last]
    cases e with
    | take =>
      rw [instanceAfter_append_other m history _ key rfl]
      exact ih key
    | call now c =>
      cases known : m.methods.get? c.method with
      | none =>
        rw [after, execute_unknown _ now c (by rw [methods, known]), ih key]
        by_cases same : c.key = key
        · subst same
          rw [instanceAfter_unknown m _ c.key known, instanceAfter_unknown m _ c.key known]
        · rw [instanceAfter_append_other]
          simp [ManagerEvent.callOn?, same]
      | some f =>
        rw [after, get?_instances_execute _ now c key (by rw [methods, known]), ih, ih]
        by_cases same : c.key = key
        · subst same
          rw [if_pos rfl, instanceAfter_append_call m history now c known,
            instanceAfter_of_known m history c.key known]
        · rw [if_neg same, instanceAfter_append_other]
          simp [ManagerEvent.callOn?, same]

/-- A call ends as on an instance that has seen its own calls only. -/
theorem execute_afterAll (m : Measurements ι) (history : List ManagerEvent) (now : Millis)
    (c : MeasurementCall) :
    ((m.dispose.afterAll history).execute now c).2 = m.aloneAfter history now c := by
  have methods : (m.dispose.afterAll history).methods = m.methods :=
    m.dispose.methods_afterAll history
  cases known : m.methods.get? c.method with
  | none =>
    rw [execute_unknown _ now c (by rw [methods, known])]
    simp [aloneAfter, known]
  | some f =>
    have state : ((m.dispose.afterAll history).instances.get? (c.method, c.identifier)).getD
        f.fresh = f.fed (callsOn c.key history) := by
      rw [get?_instances_afterAll]
      exact instanceAfter_of_known m history c.key known
    simp only [execute, call, aloneAfter, methods, known, state]

/-! ## The summaries -/

theorem pending_execute (m : Measurements ι) (now : Millis) (c : MeasurementCall) :
    (m.execute now c).1.pending = m.pending ++ (m.execute now c).2.2.returned := by
  simp [execute]

theorem taken_append_pending (m : Measurements ι) (history : List ManagerEvent) :
    m.taken history ++ (m.afterAll history).pending = m.pending ++ m.returned history := by
  induction history generalizing m with
  | nil => simp [taken, afterAll, returned]
  | cons e rest ih =>
    have tail := ih (m.after e)
    cases e with
    | call now c =>
      calc m.taken (.call now c :: rest) ++ (m.afterAll (.call now c :: rest)).pending
          = (m.after (.call now c)).pending ++ (m.after (.call now c)).returned rest := tail
        _ = m.pending ++ m.returned (.call now c :: rest) := by
          rw [after, pending_execute, returned, List.append_assoc]
          rfl
    | take =>
      have nothing : (m.after .take).pending = [] := rfl
      calc m.taken (.take :: rest) ++ (m.afterAll (.take :: rest)).pending
          = m.take.1 ++ ((m.after .take).taken rest ++
              ((m.after .take).afterAll rest).pending) := List.append_assoc _ _ _
        _ = m.take.1 ++ (m.after .take).returned rest := by rw [tail, nothing, List.nil_append]
        _ = m.pending ++ m.returned (.take :: rest) := rfl

/-- From a disposal on: every call ends as on an instance of its method that has seen no other
calls than those with its method and identifier. There is an instance exactly where a registered
method has been called, be it by a call that failed, and it is what its own calls have made of a
fresh one. What has been taken and what waits are together the summaries returned, in the order of
the calls. -/
theorem instances_kept_apart (m : Measurements ι) (history : List ManagerEvent) :
    (∀ now c, ((m.dispose.afterAll history).execute now c).2 = m.aloneAfter history now c) ∧
      (∀ key, (m.dispose.afterAll history).instances.get? key = m.instanceAfter history key) ∧
      m.dispose.taken history ++ (m.dispose.afterAll history).pending =
        m.dispose.returned history := by
  refine ⟨fun now c => execute_afterAll m history now c,
    fun key => get?_instances_afterAll m history key, ?_⟩
  have kept := m.dispose.taken_append_pending history
  rwa [show m.dispose.pending = [] from rfl, List.nil_append] at kept

end Measurements

end ReplicaLoad

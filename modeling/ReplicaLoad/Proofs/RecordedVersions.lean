-- Recorded versions. A run records the version of every object that a call has
-- stored, under the type of that object. No record fails, since the cluster
-- stamps only versions that can be recorded; so at every moment of every
-- interleaving of phases the recorded version of a type is that of the last
-- write of the type, and it never goes back while there are versions left.
import ReplicaLoad.Proofs.ClusterHistory
import ReplicaLoad.Proofs.StepErrors

namespace ReplicaLoad

/-! ## The calls of operations -/

namespace Environment

/-- The call with which an operation reaches the cluster. There is none if its request cannot be
made, or if its client crashes. -/
def call? (env : Environment) (a : Action) (op : ObjectOperation) : Option ClusterCall :=
  match env.request op.object a.index op.operation with
  | .error _ => none
  | .ok r => match env.client.crash? (op.object.objectName a.index) with
    | some _ => none
    | none => some (.request r a.ns (op.object.objectName a.index))

/-- The calls of some operations, in their order. -/
def calls (env : Environment) (done : List (Action × ObjectOperation)) : List ClusterCall :=
  done.filterMap fun x => env.call? x.1 x.2

end Environment

/-! ## One operation -/

/-- The object of a type that was stored last. -/
def lastOf (r : ResourceType) (stored : List Object) : Option Object :=
  (stored.filter (·.resourceType = r)).getLast?

theorem lastOf_append (r : ResourceType) (stored more : List Object) :
    lastOf r (stored ++ more) = (lastOf r more).or (lastOf r stored) := by
  unfold lastOf
  rw [List.filter_append, List.getLast?_append]

theorem mem_of_lastOf {r : ResourceType} {stored : List Object} {o : Object}
    (h : lastOf r stored = some o) : o ∈ stored :=
  (List.mem_filter.mp (List.mem_of_getLast? h)).1

/-- The version that is recorded for a type is that of the object of the type that was stored last,
or there is neither. -/
def VersionStore.Follows (s : VersionStore) (stored : List Object) : Prop :=
  ∀ r, (s.get? r).map (fun n => some (toString n)) = (lastOf r stored).map Object.resourceVersion?

theorem VersionStore.follows_empty : VersionStore.Follows Table.empty [] := fun _ => rfl

/-- One more object is stored and its version is recorded. -/
theorem VersionStore.Follows.put {s : VersionStore} {stored : List Object} (h : s.Follows stored)
    (version : UInt64) (ns name : String) (o : Object) :
    VersionStore.Follows
      (s.put (Cluster.stamp version ns name o).resourceType version.toNat)
      (stored ++ [Cluster.stamp version ns name o]) := by
  intro r
  rw [Table.get?_put, lastOf_append]
  by_cases hr : (Cluster.stamp version ns name o).resourceType = r
  · have hlast : lastOf r [Cluster.stamp version ns name o] =
        some (Cluster.stamp version ns name o) := by simp [lastOf, hr]
    rw [if_pos hr, hlast]
    exact congrArg some (resourceVersion?_stamp version ns name o).symm
  · have hlast : lastOf r [Cluster.stamp version ns name o] = none := by simp [lastOf, hr]
    rw [if_neg hr, hlast]
    exact h r

namespace World

/-- The record of an object that has just been stamped. -/
theorem record_stamp (w : World) (ns' name' : String) (version : UInt64) (ns name : String)
    (o : Object) :
    w.record ns' name' (Cluster.stamp version ns name o) =
      (none, { w with
        versions := w.versions.put (Cluster.stamp version ns name o).resourceType
          version.toNat }) := by
  unfold record
  rw [resourceVersion?_stamp, Option.getD_some, record_toString]

/-- A call records the version of the object that it has stored, if it has stored one. -/
theorem Follows.record {w : World} {c : Cluster}
    {stored : List Object} {x : Object} (h : w.versions.Follows stored)
    (hm : w.cluster.Moves (some x) c) (ns name : String) :
    ({ w with cluster := c }.record ns name x).2.versions.Follows (stored ++ [x]) := by
  cases hm with
  | write ns' name' o' =>
    rw [record_stamp]
    exact h.put _ _ _ _

/-- What a request makes of the recorded versions: that of the object which it has stored is
recorded, if it has stored one. -/
theorem follows_send {w : World} {client : Client} (hc : client.returned = id)
    {stored : List Object} (h : w.versions.Follows stored) (ns name : String) (r : Request) :
    (w.send client ns name r).2.versions.Follows
      (stored ++ ((ClusterCall.request r ns name).returned? w.cluster).toList) := by
  have hrest : w.versions.Follows (stored ++ (none : Option Object).toList) := by simpa using h
  cases r with
  | create o =>
    have hmoves := w.cluster.moves_create ns name o
    dsimp only [send, ClusterCall.returned?]
    generalize w.cluster.create ns name o = answer at hmoves ⊢
    obtain ⟨e | x, c⟩ := answer
    · exact hrest
    · rw [hc]
      exact Follows.record h hmoves ns name
  | patch o =>
    have hmoves := w.cluster.moves_patch ns name o
    dsimp only [send, ClusterCall.returned?]
    generalize w.cluster.patch ns name o = answer at hmoves ⊢
    obtain ⟨e | x, c⟩ := answer
    · exact hrest
    · rw [hc]
      exact Follows.record h hmoves ns name
  | delete gvk =>
    dsimp only [send, ClusterCall.returned?]
    rcases w.cluster.delete gvk ns name with ⟨e | _, c⟩
    · exact hrest
    · exact hrest

/-- A version that cannot be recorded changes nothing. -/
theorem versions_record {w : World} {ns name : String} {o : Object}
    (h : (w.record ns name o).1 ≠ none) : (w.record ns name o).2.versions = w.versions := by
  unfold record at h ⊢
  split at h
  · exact absurd rfl h
  · rfl

/-- Only a write that succeeds is recorded. -/
theorem versions_send {w : World} {client : Client} {ns name : String} {r : Request}
    (h : (w.send client ns name r).1 ≠ none ∨ r.operation = .delete) :
    (w.send client ns name r).2.versions = w.versions := by
  cases r with
  | create o =>
    have herror := h.resolve_right (by simp [Request.operation])
    dsimp only [send] at herror ⊢
    split at herror
    · exact versions_record herror
    · rfl
  | patch o =>
    have herror := h.resolve_right (by simp [Request.operation])
    dsimp only [send] at herror ⊢
    split at herror
    · exact versions_record herror
    · rfl
  | delete gvk =>
    dsimp only [send]
    split
    · rfl
    · rfl

variable {w : World} {env : Environment} {a : Action} {op : ObjectOperation}

/-- An operation has no call and changes nothing, or it sends the request of its call. -/
theorem perform_call (w : World) (env : Environment) (a : Action) (op : ObjectOperation) :
    (env.call? a op = none ∧ (w.perform env a op).world = w) ∨
    ∃ r, env.call? a op = some (.request r a.ns (op.object.objectName a.index)) ∧
      (w.perform env a op).world =
        (w.send env.client a.ns (op.object.objectName a.index) r).2 := by
  unfold Environment.call?
  rcases w.perform_cases env a op with ⟨e, hr, -, hw⟩ | ⟨r, reason, hr, hcrash, -, hw⟩ |
    ⟨r, hr, hcrash, -, hw⟩
  · exact .inl ⟨by rw [hr], hw⟩
  · exact .inl ⟨by simp only [hr, hcrash], hw⟩
  · exact .inr ⟨r, by simp only [hr, hcrash], hw⟩

/-- An operation changes the cluster by its call, if it has one. -/
theorem cluster_perform :
    (w.perform env a op).world.cluster = w.cluster.afterCalls (env.call? a op).toList := by
  rcases w.perform_call env a op with ⟨hcall, hw⟩ | ⟨r, hcall, hw⟩
  · rw [hcall, hw]
    rfl
  · rw [hcall, hw, cluster_send]
    rfl

theorem follows_perform (hc : env.client.returned = id) {stored : List Object}
    (h : w.versions.Follows stored) :
    (w.perform env a op).world.versions.Follows
      (stored ++ w.cluster.writes (env.call? a op).toList) := by
  rcases w.perform_call env a op with ⟨hcall, hw⟩ | ⟨r, hcall, hw⟩
  · rw [hcall, hw]
    simpa [Cluster.writes] using h
  · rw [hcall, hw]
    simpa [Cluster.writes] using follows_send hc h a.ns (op.object.objectName a.index) r

/-- No operation fails in the record of a version. -/
theorem isBookkeeping_of_perform (hc : env.client.returned = id) {e : RunError}
    (h : (w.perform env a op).error = some e) : e.isBookkeeping = false := by
  rcases w.perform_cases env a op with ⟨e', hr, he', -⟩ | ⟨_, _, -, -, he', -⟩ | ⟨r, -, -, he', -⟩
  · rw [h] at he'
    cases he'
    obtain ⟨path, problem, rfl | rfl⟩ := Environment.request_error hr
    · rfl
    · rfl
  · rw [h] at he'
    cases he'
    rfl
  · rw [h, (w.send_answers hc a.ns (op.object.objectName a.index) r).2] at he'
    obtain ⟨refused, -, rfl⟩ := Option.map_eq_some_iff.mp he'.symm
    cases r <;> rfl

/-- An operation that fails and a delete leave the versions as they are. -/
theorem versions_perform (h : (w.perform env a op).error ≠ none ∨ op.operation = .delete) :
    (w.perform env a op).world.versions = w.versions := by
  rcases w.perform_cases env a op with ⟨_, -, -, hw⟩ | ⟨_, _, -, -, -, hw⟩ | ⟨r, hr, -, herr, hw⟩
  · rw [hw]
  · rw [hw]
  · rw [hw]
    refine versions_send ?_
    rwa [← herr, Environment.request_operation hr]

end World

/-! ## Histories of operations -/

namespace PhaseState

/-- A step of a phase with the operation that it does, if it does one. -/
inductive Does (env : Environment) :
    World → PhaseState → Option (Action × ObjectOperation) → World → PhaseState → Prop
  | operate {w errors before a op rest after commits} (h : a.operations = op :: rest) :
      Does env w (.acting errors (before ++ a :: after) commits) (some (a, op))
        (w.perform env a op).world (.acting (errors ++ (w.perform env a op).error.toList)
          (before ++ ((w.perform env a op).remains a rest ++ after)) commits)
  -- an operation that can have no outcome is not done
  | other {w q w' q'} (h : Step env (fun _ _ _ _ => False) w q w' q') : Does env w q none w' q'

variable {env : Environment} {w w' : World} {q q' : PhaseState}

theorem Step.does (h : Step env env.performs w q w' q') : ∃ x, Does env w q x w' q' := by
  cases h with
  | refuse h => exact ⟨_, .other (.refuse h)⟩
  | idle h => exact ⟨_, .other (.idle h)⟩
  | enrol h => exact ⟨_, .other (.enrol h)⟩
  | read h => exact ⟨_, .other (.read h)⟩
  | write => exact ⟨_, .other .write⟩
  | next h => exact ⟨_, .other (.next h)⟩
  | @operate errors before a op rest after commits done h hdone =>
    obtain rfl : done = w.perform env a op := hdone
    exact ⟨_, .operate h⟩
  | finish h => exact ⟨_, .other (.finish h)⟩
  | settle => exact ⟨_, .other .settle⟩
  | commit => exact ⟨_, .other .commit⟩
  | leave => exact ⟨_, .other .leave⟩

theorem Does.step {x : Option (Action × ObjectOperation)} (h : Does env w q x w' q') :
    Step env env.performs w q w' q' := by
  cases h with
  | operate h => exact .operate h rfl
  | other h => exact h.mono fun _ _ _ _ hdone => hdone.elim

end PhaseState

namespace Interleaving

/-- The operations that are done between two moments, the latest last. -/
inductive Does (env : Environment) (t : Interleaving) :
    List (Action × ObjectOperation) → Interleaving → Prop
  | refl : Does env t [] t
  | step {done w w' before q q' after commits x}
      (h : Does env t done ⟨w, before ++ q :: after, commits⟩) (hs : q.Does env w x w' q') :
      Does env t (done ++ x.toList)
        ⟨w', before ++ q' :: after, commits ++ (q.commits?.map (before.length, ·)).toList⟩

variable {env : Environment} {t t' : Interleaving} {done : List (Action × ObjectOperation)}

/-- Every moment that can be reached has a history. -/
theorem Reaches.does (h : Reaches env env.performs t t') : ∃ done, Does env t done t' := by
  induction h with
  | refl => exact ⟨[], .refl⟩
  | tail _ hs ih =>
    obtain ⟨done, hdone⟩ := ih
    cases hs with
    | mk hs =>
      obtain ⟨x, hx⟩ := hs.does
      exact ⟨_, hdone.step hx⟩

theorem Does.reaches (h : Does env t done t') : Reaches env env.performs t t' := by
  induction h with
  | refl => exact .refl
  | step _ hs ih => exact ih.tail (.mk hs.step)

end Interleaving

/-! ## The versions of a run -/

/-- What a cluster and some operations on it tell of a world: what is stored there, and which
versions are recorded. -/
structure World.ToldBy (w : World) (env : Environment) (c₀ : Cluster)
    (done : List (Action × ObjectOperation)) : Prop where
  cluster : w.cluster = c₀.afterCalls (env.calls done)
  versions : w.versions.Follows (c₀.writes (env.calls done))

/-- A step keeps to the operations that were done. -/
theorem PhaseState.Does.toldBy {env : Environment} {w w' : World} {q q' : PhaseState}
    {x : Option (Action × ObjectOperation)} {c₀ : Cluster} {done : List (Action × ObjectOperation)}
    (hs : Does env w q x w' q') (hc : env.client.returned = id) (h : w.ToldBy env c₀ done) :
    w'.ToldBy env c₀ (done ++ x.toList) := by
  cases hs with
  | @operate errors before a op rest after commits _ =>
    have hcalls : env.calls (done ++ [(a, op)]) = env.calls done ++ (env.call? a op).toList := by
      unfold Environment.calls
      rw [List.filterMap_append]
      cases hcall : env.call? a op <;> simp [hcall]
    constructor
    · rw [Option.toList_some, hcalls, Cluster.afterCalls_append, ← h.cluster]
      exact World.cluster_perform
    · rw [Option.toList_some, hcalls, Cluster.writes_append, ← h.cluster]
      exact World.follows_perform hc h.versions
  | other hs =>
    rw [Option.toList_none, List.append_nil]
    have hsame : w'.cluster = w.cluster ∧ w'.versions = w.versions := by
      cases hs with
      | operate _ hdone => exact hdone.elim
      | _ => exact ⟨rfl, rfl⟩
    exact ⟨hsame.1 ▸ h.cluster, hsame.2 ▸ h.versions⟩

/-- Neither a phase that is refused nor an operation that fails has failed in the record of a
version. -/
theorem PhaseState.Step.isBookkeeping {env : Environment} {w w' : World} {q q' : PhaseState}
    (hs : Step env env.performs w q w' q') (hc : env.client.returned = id)
    (h : ∀ e ∈ q.errors, e.isBookkeeping = false) : ∀ e ∈ q'.errors, e.isBookkeeping = false := by
  intro e he
  rcases hs.mem_errors he with he | ⟨p, -, hr⟩ | ⟨a, op, he⟩
  · exact h e he
  · rcases Environment.ready_error hr with ⟨problem, rfl, -⟩ | ⟨path, problem, rfl⟩
    · rfl
    · rfl
  · exact World.isBookkeeping_of_perform hc he

namespace Interleaving

variable {env : Environment} {t t' : Interleaving} {c₀ : Cluster}
  {done more : List (Action × ObjectOperation)}

/-- So does a run, by induction on its operations. -/
theorem Does.toldBy (hr : Does env t more t') (hc : env.client.returned = id)
    (h : t.world.ToldBy env c₀ done) : t'.world.ToldBy env c₀ (done ++ more) := by
  induction hr with
  | refl => rwa [List.append_nil]
  | step _ hs ih =>
    rw [← List.append_assoc]
    exact hs.toldBy hc ih

/-- No phase records an error of the bookkeeping. -/
theorem Does.isBookkeeping (hr : Does env t done t') (hc : env.client.returned = id)
    (h : ∀ q ∈ t.phases, ∀ e ∈ q.errors, e.isBookkeeping = false) :
    ∀ q ∈ t'.phases, ∀ e ∈ q.errors, e.isBookkeeping = false :=
  forall_of_reaches (fun _ _ _ _ hs hq => hs.isBookkeeping hc hq) hr.reaches h

end Interleaving

/-- The version that is recorded for a type never goes back, while there are versions left. -/
theorem World.ToldBy.le {env : Environment} {w w' : World} {c₀ : Cluster}
    {done more : List (Action × ObjectOperation)} (h : w.ToldBy env c₀ done)
    (h' : w'.ToldBy env c₀ (done ++ more))
    (hlt : c₀.version.toNat + (c₀.writes (env.calls (done ++ more))).length < 2 ^ 64)
    {r : ResourceType} {n : Nat} (hn : w.versions.get? r = some n) :
    ∃ n', w'.versions.get? r = some n' ∧ n ≤ n' := by
  have hcalls : env.calls (done ++ more) = env.calls done ++ env.calls more := List.filterMap_append
  have hbefore := h.versions r
  have hafter := h'.versions r
  rw [hcalls, Cluster.writes_append, lastOf_append] at hafter
  rw [hcalls, Cluster.writes_append, List.length_append] at hlt
  rw [hn] at hbefore
  obtain ⟨o, ho, hversion⟩ := Option.map_eq_some_iff.mp hbefore.symm
  -- the last write of the type is one since then, or the same as before
  cases hlast : lastOf r ((c₀.afterCalls (env.calls done)).writes (env.calls more)) with
  | none =>
    rw [hlast, Option.none_or, ho, Option.map_some, hversion] at hafter
    obtain ⟨n', hn', heq⟩ := Option.map_eq_some_iff.mp hafter
    exact ⟨n', hn', Nat.le_of_eq (Text.toString_inj (Option.some.inj heq)).symm⟩
  | some o' =>
    rw [hlast, Option.some_or, Option.map_some] at hafter
    obtain ⟨n', hn', heq⟩ := Option.map_eq_some_iff.mp hafter
    -- the counter stands between the two writes
    obtain ⟨m, hm, -, hle⟩ := Cluster.version_of_mem_writes (by omega) (mem_of_lastOf ho)
    have hmiddle := c₀.version_afterCalls (env.calls done) (by omega)
    obtain ⟨m', hm', hgt, -⟩ := Cluster.version_of_mem_writes (by omega) (mem_of_lastOf hlast)
    rw [hversion] at hm
    rw [← heq] at hm'
    have hnm : n = m := Text.toString_inj (Option.some.inj hm)
    have hnm' : n' = m' := Text.toString_inj (Option.some.inj hm')
    exact ⟨n', hn', by omega⟩

/-- What holds at a moment of a run after some operations. -/
structure Interleaving.Recorded (env : Environment) (c₀ : Cluster)
    (done : List (Action × ObjectOperation)) (t : Interleaving) : Prop where
  /-- The operations have led to the cluster, and the last writes among them are recorded. -/
  told : t.world.ToldBy env c₀ done
  errors : ∀ step, ∀ e ∈ t.errors step, e.isBookkeeping = false
  /-- What may be done next is recorded only if it is a write and succeeds. -/
  unchanged : ∀ a op, (t.world.perform env a op).error ≠ none ∨ op.operation = .delete →
    (t.world.perform env a op).world.versions = t.world.versions
  grows : ∀ more t', Does env t more t' →
    c₀.version.toNat + (c₀.writes (env.calls (done ++ more))).length < 2 ^ 64 →
    ∀ r n, t.world.versions.get? r = some n → ∃ n', t'.world.versions.get? r = some n' ∧ n ≤ n'

/-- Phases that begin with no version recorded, on a cluster in any state, never fail in the record
of a version. At every moment of every interleaving of them the version recorded for a type is the
one with which the last write of the type was stamped; deletes and operations that fail leave it as
it is; and as long as the counter does not wrap around it never goes back. Phases on a timeline are
such an interleaving, and so are phases one after another, since a phase may wait before it
begins. -/
theorem last_writes_recorded {env : Environment} {w : World} (hc : env.client.returned = id)
    (hw : w.versions = Table.empty) (phases : List Phase) :
    (∀ t, Interleaving.Reaches env env.performs (.start w phases) t →
      ∃ done, Interleaving.Does env (.start w phases) done t) ∧
    (∀ done t, Interleaving.Does env (.start w phases) done t → t.Recorded env w.cluster done) ∧
    ∀ step now, ∃ done t, Interleaving.Does env (.start w phases) done t ∧
      t.world = (w.runPhases env step now phases).2.1 ∧
      (w.runPhases env step now phases).1.errors.Perm (t.errors step) := by
  refine ⟨fun t h => h.does, fun done t h => ?_, fun step now => ?_⟩
  · have hstart : (Interleaving.start w phases).world.ToldBy env w.cluster [] :=
      ⟨rfl, hw ▸ VersionStore.follows_empty⟩
    have htold : t.world.ToldBy env w.cluster done := h.toldBy hc hstart
    refine ⟨htold, ?_, fun a op hop => World.versions_perform hop, ?_⟩
    · -- a phase that has not begun has recorded nothing
      have hnone : ∀ q ∈ (Interleaving.start w phases).phases, ∀ e ∈ q.errors,
          e.isBookkeeping = false := by
        intro q hq e he
        obtain ⟨p, -, rfl⟩ := List.mem_map.mp hq
        cases he
      intro step e he
      rcases Interleaving.mem_errors he with ⟨q, hq, he⟩ | ⟨index, reason, rfl⟩
      · exact h.isBookkeeping hc hnone q hq e he
      · rfl
    · intro more t' hmore hlt r n hn
      exact htold.le (hmore.toldBy hc htold) hlt hn
  · obtain ⟨t, hreach, -, hworld, herrors⟩ := Interleaving.runPhases_reached env step w now phases
    obtain ⟨done, hdone⟩ := hreach.does
    exact ⟨done, t, hdone, hworld, herrors⟩

/-- A cluster that has seen writes, and refuses one name. -/
def usedWorld : World := { cluster := { version := 7, failingNames := ["a-1"] } }

theorem last_writes_recorded_samplePhase :
    ∃ done t, Interleaving.Does sampleEnvironment (.start usedWorld [samplePhase "a" 2]) done t ∧
      (lastOf ⟨"A", ""⟩ (usedWorld.cluster.writes (sampleEnvironment.calls done))).map
        Object.resourceVersion? = some (some "8") ∧
      t.world.cluster.journal.map (fun e => (e.name, e.succeeded)) =
        [("a-0", true), ("a-1", false)] ∧
      ∀ e ∈ t.errors "step", e.isBookkeeping = false := by
  have hversion :
      (usedWorld.runPhases sampleEnvironment "step" 0 [samplePhase "a" 2]).2.1.versions.get?
        ⟨"A", ""⟩ = some 8 := by decide +kernel
  have hjournal :
      (usedWorld.runPhases sampleEnvironment "step" 0 [samplePhase "a" 2]).2.1.cluster.journal.map
        (fun e => (e.name, e.succeeded)) = [("a-0", true), ("a-1", false)] := by decide +kernel
  obtain ⟨-, hrecorded, hrun⟩ :=
    @last_writes_recorded sampleEnvironment usedWorld rfl rfl [samplePhase "a" 2]
  obtain ⟨done, t, hdone, hworld, -⟩ := hrun "step" 0
  have h := hrecorded done t hdone
  refine ⟨done, t, hdone, ?_, ?_, h.errors "step"⟩
  · have hlast := h.told.versions ⟨"A", ""⟩
    rw [hworld, hversion] at hlast
    exact hlast.symm
  · rw [hworld]
    exact hjournal

end ReplicaLoad

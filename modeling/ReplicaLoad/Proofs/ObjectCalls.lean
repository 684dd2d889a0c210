-- Calls for objects. What a call does, told by what the cluster holds under its
-- key: whether it succeeds, what it leaves there, and which entry it makes in
-- the journal. It reads and changes nothing else, so that calls for different
-- keys do not notice each other.
import ReplicaLoad.Proofs.StoredObjects
import ReplicaLoad.Run.Environment

namespace ReplicaLoad

/-! ## Requests -/

namespace Request

def operation : Request → Operation
  | create _ => .create
  | patch _ => .patch
  | delete _ => .delete

def groupVersionKind : Request → GroupVersionKind
  | create o => o.groupVersionKind
  | patch o => o.groupVersionKind
  | delete gvk => gvk

def key (r : Request) (ns name : String) : ObjectKey := Cluster.key ns r.groupVersionKind name

/-- The error of a run for a request that the cluster has refused. -/
def runError (ns name : String) : Request → ClusterError → RunError
  | create _ => .create ns name
  | patch _ => .patch ns name
  | delete _ => .delete ns name

/-- The error of a request, if any, for a name that is told to fail or for what is held under its
key. -/
def refusal (r : Request) (ns name : String) (failing : Bool) (held : Bool) : Option ClusterError :=
  if failing then some (Cluster.injected name)
  else match r, held with
    | create o, true => some (.alreadyExists o.kind ns name)
    | patch o, false => some (.notFound o.kind ns name)
    | delete gvk, false => some (.notFound gvk.kind ns name)
    | _, _ => none

/-- What the call of a request makes of a cluster. -/
def call (c : Cluster) (ns name : String) : Request → Cluster
  | create o => (c.create ns name o).2
  | patch o => (c.patch ns name o).2
  | delete gvk => (c.delete gvk ns name).2

/-- What a request that succeeds leaves under its key, up to the version. -/
def written (ns name : String) : Request → Option Object
  | create o => some (Cluster.stamp 0 ns name o).versionless
  | patch o => some (Cluster.stamp 0 ns name o).versionless
  | delete _ => none

theorem refusal_eq_none {r : Request} {ns name : String} {held : Bool} :
    r.refusal ns name false held = none ↔ (held = true ↔ r.operation ≠ .create) := by
  cases r <;> cases held <;> simp [refusal, operation]

theorem isSome_written (r : Request) (ns name : String) :
    (r.written ns name).isSome = true ↔ r.operation ≠ .delete := by
  cases r <;> simp [written, operation]

end Request

theorem Environment.request_operation {env : Environment} {o : ObjectTemplate} {i : Nat}
    {op : Operation} {r : Request} (h : env.request o i op = .ok r) : r.operation = op := by
  unfold Environment.request at h
  split at h <;> split at h <;> cases h
  · rfl
  · rfl
  · rfl

/-- A request has the identity of the object that it was made of. -/
theorem Environment.request_identity {env : Environment} {o : ObjectTemplate} {i : Nat}
    {op : Operation} {r : Request} (h : env.request o i op = .ok r) :
    ∃ found, r.groupVersionKind = found.groupVersionKind ∧
      (if op = .delete then env.bareObject o.path = .ok found
        else env.object o.path (o.values i) = .ok found) := by
  unfold Environment.request at h
  split at h
  · split at h
    · rename_i found hf
      cases h
      exact ⟨found, rfl, hf⟩
    · cases h
  · split at h
    · rename_i made hm
      cases h
      exact ⟨made, rfl, hm⟩
    · cases h
  · split at h
    · rename_i made hm
      cases h
      exact ⟨made, rfl, hm⟩
    · cases h

theorem Object.kind_groupVersionKind (o : Object) : o.groupVersionKind.kind = o.kind := by
  unfold Object.groupVersionKind GroupVersionKind.ofApiVersion
  split
  · rfl
  · rfl

/-- The object that a cluster holds under a key, up to its version. -/
def Cluster.view (c : Cluster) (k : ObjectKey) : Option Object :=
  (c.objects.get? k).map Object.versionless

/-! ## What a call does -/

/-- What a call leaves behind in a cluster. -/
structure Cluster.Answers (c c' : Cluster) (r : Request) (ns name : String)
    (refused : Option ClusterError) : Prop where
  failingNames : c'.failingNames = c.failingNames
  journal : c'.journal =
    c.journal ++ [⟨r.operation, ns, r.groupVersionKind.kind, name, refused.isNone⟩]
  view : ∀ k, c'.view k =
    if r.key ns name = k ∧ refused = none then r.written ns name else c.view k

namespace Cluster

theorem view_put (c : Cluster) (k k' : ObjectKey) (o : Object) :
    ((c.objects.put k o).get? k').map Object.versionless =
      if k = k' then some o.versionless else c.view k' := by
  rw [Table.get?_put]
  split
  · rfl
  · rfl

theorem isSome_view (c : Cluster) (k : ObjectKey) :
    (c.view k).isSome = (c.objects.get? k).isSome := by
  simp [view]

/-- A call that fails changes the journal alone. -/
theorem answers_fail (c : Cluster) (r : Request) (ns name : String) (e : ClusterError) :
    c.Answers (c.enter r.operation ns r.groupVersionKind.kind name false) r ns name (some e) where
  failingNames := rfl
  journal := rfl
  view := by
    intro k
    rw [if_neg (by simp)]
    rfl

/-- A call that stores an object. -/
theorem answers_write (c : Cluster) {r : Request} {ns name : String} {o : Object}
    (hr : r.groupVersionKind = o.groupVersionKind)
    (hw : r.written ns name = some (stamp 0 ns name o).versionless) :
    c.Answers ((c.write ns name o).2.enter r.operation ns r.groupVersionKind.kind name true) r ns
      name none where
  failingNames := rfl
  journal := rfl
  view := by
    intro k
    change ((c.objects.put (key ns o.groupVersionKind name) _).get? k).map _ = _
    rw [view_put, versionless_stamp _ 0, Request.key, hr, hw]
    simp

/-- A call that removes an object. -/
theorem answers_erase (c : Cluster) (gvk : GroupVersionKind) (ns name : String) :
    c.Answers
      ({ c with objects := c.objects.erase (key ns gvk name) }.enter .delete ns gvk.kind name true)
      (.delete gvk) ns name none where
  failingNames := rfl
  journal := rfl
  view := by
    intro k
    change ((c.objects.erase (key ns gvk name)).get? k).map _ = _
    rw [Table.get?_erase]
    by_cases hk : key ns gvk name = k
    · simp [hk, Request.key, Request.groupVersionKind, Request.written]
    · simp [hk, Request.key, Request.groupVersionKind, view]

def refusal (c : Cluster) (r : Request) (ns name : String) : Option ClusterError :=
  r.refusal ns name (decide (name ∈ c.failingNames)) (c.view (r.key ns name)).isSome

theorem refusal_of_failing {c : Cluster} {name : String} (h : name ∈ c.failingNames) (r : Request)
    (ns : String) : c.refusal r ns name = some (injected name) := by
  simp [refusal, Request.refusal, h]

theorem refusal_of_get? {c : Cluster} {r : Request} {ns name : String} {held : Option Object}
    (h : name ∉ c.failingNames) (hget : c.object? ns r.groupVersionKind name = held) :
    c.refusal r ns name = r.refusal ns name false held.isSome := by
  unfold refusal
  rw [isSome_view, decide_eq_false h, ← hget]
  rfl

theorem create_answers (c : Cluster) (ns name : String) (o : Object) :
    c.Answers (c.create ns name o).2 (.create o) ns name (c.refusal (.create o) ns name) ∧
    (c.create ns name o).1 = match c.refusal (.create o) ns name with
      | some e => .error e
      | none => .ok (c.write ns name o).1 := by
  unfold create
  rw [← o.kind_groupVersionKind]
  by_cases hf : name ∈ c.failingNames
  · rw [if_pos hf, refusal_of_failing hf]
    exact ⟨c.answers_fail (.create o) ns name _, rfl⟩
  · rw [if_neg hf]
    cases hget : c.object? ns o.groupVersionKind name with
    | some held =>
      rw [refusal_of_get? hf hget, o.kind_groupVersionKind]
      exact ⟨o.kind_groupVersionKind ▸ c.answers_fail (.create o) ns name _, rfl⟩
    | none =>
      rw [refusal_of_get? hf hget]
      exact ⟨c.answers_write (r := .create o) rfl rfl, rfl⟩

theorem patch_answers (c : Cluster) (ns name : String) (o : Object) :
    c.Answers (c.patch ns name o).2 (.patch o) ns name (c.refusal (.patch o) ns name) ∧
    (c.patch ns name o).1 = match c.refusal (.patch o) ns name with
      | some e => .error e
      | none => .ok (c.write ns name o).1 := by
  unfold patch
  rw [← o.kind_groupVersionKind]
  by_cases hf : name ∈ c.failingNames
  · rw [if_pos hf, refusal_of_failing hf]
    exact ⟨c.answers_fail (.patch o) ns name _, rfl⟩
  · rw [if_neg hf]
    cases hget : c.object? ns o.groupVersionKind name with
    | some held =>
      rw [refusal_of_get? hf hget]
      exact ⟨c.answers_write (r := .patch o) rfl rfl, rfl⟩
    | none =>
      rw [refusal_of_get? hf hget, o.kind_groupVersionKind]
      exact ⟨o.kind_groupVersionKind ▸ c.answers_fail (.patch o) ns name _, rfl⟩

theorem delete_answers (c : Cluster) (gvk : GroupVersionKind) (ns name : String) :
    c.Answers (c.delete gvk ns name).2 (.delete gvk) ns name (c.refusal (.delete gvk) ns name) ∧
    (c.delete gvk ns name).1 = match c.refusal (.delete gvk) ns name with
      | some e => .error e
      | none => .ok () := by
  unfold delete
  by_cases hf : name ∈ c.failingNames
  · rw [if_pos hf, refusal_of_failing hf]
    exact ⟨c.answers_fail (.delete gvk) ns name _, rfl⟩
  · rw [if_neg hf]
    cases hget : c.object? ns gvk name with
    | some held =>
      rw [refusal_of_get? hf hget]
      exact ⟨c.answers_erase gvk ns name, rfl⟩
    | none =>
      rw [refusal_of_get? hf hget]
      exact ⟨c.answers_fail (.delete gvk) ns name _, rfl⟩

end Cluster

namespace World

/-- The record of a version has nothing to do with the cluster. -/
theorem cluster_record (w : World) (ns name : String) (o : Object) :
    (w.record ns name o).2.cluster = w.cluster := by
  unfold record
  split
  · rfl
  · rfl

/-- A request changes the cluster by its call alone, whatever the client returns. -/
theorem cluster_send (w : World) (client : Client) (ns name : String) (r : Request) :
    (w.send client ns name r).2.cluster = Request.call w.cluster ns name r := by
  cases r with
  | create o =>
    unfold send Request.call
    dsimp only
    split
    · rename_i heq
      rw [cluster_record, heq]
    · rename_i heq
      rw [heq]
  | patch o =>
    unfold send Request.call
    dsimp only
    split
    · rename_i heq
      rw [cluster_record, heq]
    · rename_i heq
      rw [heq]
  | delete gvk =>
    unfold send Request.call
    dsimp only
    split
    · rename_i heq
      rw [heq]
    · rename_i heq
      rw [heq]

theorem answers_send (w : World) (client : Client) (ns name : String) (r : Request) :
    w.cluster.Answers (w.send client ns name r).2.cluster r ns name
      (w.cluster.refusal r ns name) := by
  rw [cluster_send]
  cases r with
  | create o => exact (w.cluster.create_answers ns name o).1
  | patch o => exact (w.cluster.patch_answers ns name o).1
  | delete gvk => exact (w.cluster.delete_answers gvk ns name).1

end World

/-- The version of an object that has just been stored is recorded. -/
theorem World.record_write (w : World) (c : Cluster) (ns name : String) (o : Object) :
    ∃ versions, w.record ns name (c.write ns name o).1 = (none, { w with versions }) := by
  unfold World.record
  have hv : (c.write ns name o).1.resourceVersion?.getD "" = toString (c.version + 1) := by
    unfold Cluster.write
    rw [resourceVersion?_stamp]
    rfl
  rw [hv, record_toString]
  exact ⟨_, rfl⟩

variable {client : Client}

/-- What a run makes of a call: the error of its refusal, if any. -/
theorem World.send_answers (w : World) (h : client.returned = id) (ns name : String) (r : Request) :
    w.cluster.Answers (w.send client ns name r).2.cluster r ns name (w.cluster.refusal r ns name) ∧
    (w.send client ns name r).1 = (w.cluster.refusal r ns name).map (r.runError ns name) := by
  refine ⟨w.answers_send client ns name r, ?_⟩
  cases r with
  | create o =>
    obtain ⟨-, hr⟩ := w.cluster.create_answers ns name o
    cases href : w.cluster.refusal (.create o) ns name with
    | some e =>
      rw [href] at hr
      have hc : w.cluster.create ns name o = (.error e, (w.cluster.create ns name o).2) :=
        Prod.ext hr rfl
      rw [World.send, hc]
      rfl
    | none =>
      rw [href] at hr
      have hc : w.cluster.create ns name o =
          (.ok (w.cluster.write ns name o).1, (w.cluster.create ns name o).2) := Prod.ext hr rfl
      obtain ⟨versions, hrec⟩ :=
        { w with cluster := (w.cluster.create ns name o).2 }.record_write w.cluster ns name o
      rw [World.send, hc, h]
      dsimp only [id]
      rw [hrec]
      rfl
  | patch o =>
    obtain ⟨-, hr⟩ := w.cluster.patch_answers ns name o
    cases href : w.cluster.refusal (.patch o) ns name with
    | some e =>
      rw [href] at hr
      have hc : w.cluster.patch ns name o = (.error e, (w.cluster.patch ns name o).2) :=
        Prod.ext hr rfl
      rw [World.send, hc]
      rfl
    | none =>
      rw [href] at hr
      have hc : w.cluster.patch ns name o =
          (.ok (w.cluster.write ns name o).1, (w.cluster.patch ns name o).2) := Prod.ext hr rfl
      obtain ⟨versions, hrec⟩ :=
        { w with cluster := (w.cluster.patch ns name o).2 }.record_write w.cluster ns name o
      rw [World.send, hc, h]
      dsimp only [id]
      rw [hrec]
      rfl
  | delete gvk =>
    obtain ⟨-, hr⟩ := w.cluster.delete_answers gvk ns name
    cases href : w.cluster.refusal (.delete gvk) ns name with
    | some e =>
      rw [href] at hr
      have hc : w.cluster.delete gvk ns name = (.error e, (w.cluster.delete gvk ns name).2) :=
        Prod.ext hr rfl
      rw [World.send, hc]
      rfl
    | none =>
      rw [href] at hr
      have hc : w.cluster.delete gvk ns name = (.ok (), (w.cluster.delete gvk ns name).2) :=
        Prod.ext hr rfl
      rw [World.send, hc]
      rfl

/-- An operation does to the cluster what the call of its request does. -/
theorem World.answers_operate (w : World) {env : Environment} {o : ObjectTemplate} {op : Operation}
    {i : Nat} {r : Request} (h : env.request o i op = .ok r) (ns : String) :
    w.cluster.Answers (w.operate env o op ns i).2.1.cluster r ns (o.objectName i)
      (w.cluster.refusal r ns (o.objectName i)) := by
  unfold World.operate
  rw [h]
  exact w.answers_send env.client ns (o.objectName i) r

end ReplicaLoad

-- The journal of a cluster. A call for an object is all or nothing. When it
-- fails, the objects and the counter of versions stay as they are; when it
-- succeeds, it changes what is held under its own key and nothing else. Either
-- way one entry of the journal tells of it. So the counter can be counted in
-- the journal, and a key is there when the last call that has settled its
-- presence was a create.
import ReplicaLoad.Proofs.ClusterHistory
import ReplicaLoad.Proofs.ScopeNamespaces

namespace ReplicaLoad

/-! ## One call -/

namespace Request

/-- The answer to a call: the object that it returns, nothing for a delete, or its error. -/
def answer (c : Cluster) (ns name : String) : Request → Except ClusterError (Option Object)
  | create o => (c.create ns name o).1.map some
  | patch o => (c.patch ns name o).1.map some
  | delete gvk => (c.delete gvk ns name).1.map fun _ => none

/-- What a call that succeeds leaves under its key, with the version after a counter. -/
def stored (counter : UInt64) (ns name : String) : Request → Option Object
  | create o => some (Cluster.stamp (counter + 1) ns name o)
  | patch o => some (Cluster.stamp (counter + 1) ns name o)
  | delete _ => none

end Request

namespace Cluster

/-- What a call that succeeds finds, returns and leaves behind. -/
structure Replaces (c c' : Cluster) (r : Request) (ns name : String) (held : Option Object) :
    Prop where
  /-- A create finds nothing under its key, and the other calls find an object. -/
  found : (c.objects.get? (r.key ns name)).isSome = true ↔ r.operation ≠ .create
  returned : held = r.stored c.version ns name
  objects : ∀ k, c'.objects.get? k = if r.key ns name = k then held else c.objects.get? k
  version : c'.version = c.version + if r.operation = .delete then 0 else 1

/-- What a call leaves behind, told by its answer. -/
structure Settles (c c' : Cluster) (r : Request) (ns name : String)
    (answer : Except ClusterError (Option Object)) : Prop where
  failed : ∀ e, answer = .error e → c'.objects = c.objects ∧ c'.version = c.version
  succeeded : ∀ held, answer = .ok held → c.Replaces c' r ns name held
  journal : c'.journal =
    c.journal ++ [⟨r.operation, ns, r.groupVersionKind.kind, name, answer.isOk⟩]
  namespaces : c'.namespaces = c.namespaces
  failingNames : c'.failingNames = c.failingNames
  failingCalls : c'.failingCalls = c.failingCalls

variable (c : Cluster) (ns name : String)

theorem settles_fail (r : Request) (e : ClusterError) :
    c.Settles (c.enter r.operation ns r.groupVersionKind.kind name false) r ns name (.error e) where
  failed := fun _ _ => ⟨rfl, rfl⟩
  succeeded := nofun
  journal := rfl
  namespaces := rfl
  failingNames := rfl
  failingCalls := rfl

theorem settles_write {r : Request} {o : Object} (hr : r.groupVersionKind = o.groupVersionKind)
    (hop : r.operation ≠ .delete) (hs : r.stored c.version ns name = some (c.write ns name o).1)
    (hfound : (c.object? ns o.groupVersionKind name).isSome = true ↔ r.operation ≠ .create) :
    c.Settles ((c.write ns name o).2.enter r.operation ns r.groupVersionKind.kind name true) r ns
      name (.ok (some (c.write ns name o).1)) where
  failed := nofun
  succeeded := by
    intro held h
    cases h
    refine ⟨?_, hs.symm, fun k => ?_, ?_⟩
    · rw [← hfound, Request.key, hr]
      rfl
    · rw [Request.key, hr]
      exact Table.get?_put _ _ _ _
    · rw [if_neg hop]
      rfl
  journal := rfl
  namespaces := rfl
  failingNames := rfl
  failingCalls := rfl

theorem settles_erase {gvk : GroupVersionKind} {o : Object}
    (h : c.object? ns gvk name = some o) :
    c.Settles
      ({ c with objects := c.objects.erase (key ns gvk name) }.enter .delete ns gvk.kind name true)
      (.delete gvk) ns name (.ok none) where
  failed := nofun
  succeeded := by
    intro held hheld
    cases hheld
    refine ⟨?_, rfl, fun k => Table.get?_erase _ _ _, ?_⟩
    · change (c.object? ns gvk name).isSome = true ↔ _
      simp [h, Request.operation]
    · exact (UInt64.add_zero _).symm
  journal := rfl
  namespaces := rfl
  failingNames := rfl
  failingCalls := rfl

/-- Every call is all or nothing, and is entered in the journal. -/
theorem settles_call (r : Request) :
    c.Settles (r.call c ns name) r ns name (r.answer c ns name) := by
  cases r with
  | create o =>
    change c.Settles (c.create ns name o).2 _ ns name ((c.create ns name o).1.map some)
    unfold create
    rw [← o.kind_groupVersionKind]
    by_cases hf : name ∈ c.failingNames
    · simp only [hf, if_true]
      exact c.settles_fail ns name (.create o) _
    · simp only [hf, if_false]
      cases hget : c.object? ns o.groupVersionKind name with
      | some held => exact c.settles_fail ns name (.create o) _
      | none =>
        refine c.settles_write ns name (r := .create o) rfl (by simp [Request.operation]) rfl ?_
        simp [hget, Request.operation]
  | patch o =>
    change c.Settles (c.patch ns name o).2 _ ns name ((c.patch ns name o).1.map some)
    unfold patch
    rw [← o.kind_groupVersionKind]
    by_cases hf : name ∈ c.failingNames
    · simp only [hf, if_true]
      exact c.settles_fail ns name (.patch o) _
    · simp only [hf, if_false]
      cases hget : c.object? ns o.groupVersionKind name with
      | none => exact c.settles_fail ns name (.patch o) _
      | some held =>
        refine c.settles_write ns name (r := .patch o) rfl (by simp [Request.operation]) rfl ?_
        simp [hget, Request.operation]
  | delete gvk =>
    change c.Settles (c.delete gvk ns name).2 _ ns name ((c.delete gvk ns name).1.map fun _ => none)
    unfold delete
    by_cases hf : name ∈ c.failingNames
    · simp only [hf, if_true]
      exact c.settles_fail ns name (.delete gvk) _
    · simp only [hf, if_false]
      cases hget : c.object? ns gvk name with
      | none => exact c.settles_fail ns name (.delete gvk) _
      | some held => exact c.settles_erase ns name hget

end Cluster

/-! ## The counter and the journal -/

/-- Whether an entry tells of a call that has stored an object. -/
def JournalEntry.isWrite (e : JournalEntry) : Bool := e.succeeded && e.operation ≠ .delete

/-- The entry of a create or a patch is counted exactly when there is an object in the answer. -/
theorem count_answer {op : Operation} (h : op ≠ .delete) (ns kind name : String)
    (x : Except ClusterError Object) :
    (if JournalEntry.isWrite ⟨op, ns, kind, name, (x.map some).isOk⟩ = true then 1 else 0) =
      x.toOption.toList.length := by
  cases x with
  | error e => rfl
  | ok o =>
    have hwrite : JournalEntry.isWrite ⟨op, ns, kind, name, true⟩ = true := by
      simp [JournalEntry.isWrite, h]
    exact if_pos hwrite

/-- A call is entered as a write exactly when it returns the object that it has stored. -/
theorem Request.count_call (c : Cluster) (ns name : String) (r : Request) :
    (r.call c ns name).journal.countP JournalEntry.isWrite =
      c.journal.countP JournalEntry.isWrite +
        ((ClusterCall.request r ns name).returned? c).toList.length := by
  rw [(c.settles_call ns name r).journal, List.countP_append, List.countP_singleton]
  congr 1
  cases r with
  | create o => exact @count_answer .create (by decide) ns _ name (c.create ns name o).1
  | patch o => exact @count_answer .patch (by decide) ns _ name (c.patch ns name o).1
  | delete gvk =>
    have hdelete : ∀ succeeded, JournalEntry.isWrite
        ⟨.delete, ns, gvk.kind, name, succeeded⟩ = false := by
      intro succeeded
      simp [JournalEntry.isWrite]
    simp [Request.operation, Request.groupVersionKind, hdelete, ClusterCall.returned?]

namespace Cluster

/-- Only calls for objects are entered. -/
theorem count_after (c : Cluster) (call : ClusterCall) :
    (call.after c).journal.countP JournalEntry.isWrite =
      c.journal.countP JournalEntry.isWrite + (call.returned? c).toList.length := by
  cases call with
  | request r ns name => exact r.count_call c ns name
  | createNamespaces scope count =>
    obtain ⟨namespaces, hcreate, -⟩ := c.createNamespaces_eq scope count
    change (c.createNamespaces scope count).2.journal.countP _ = _
    rw [hcreate]
    rfl
  | deleteNamespaces scope =>
    have hj : (c.deleteNamespaces scope).2.journal = c.journal := by
      unfold deleteNamespaces
      split
      · rfl
      · rfl
    change (c.deleteNamespaces scope).2.journal.countP _ = _
    rw [hj]
    rfl
  | _ => rfl

/-- The writes of a history are the entries of its calls that have stored an object. -/
theorem count_afterCalls (c : Cluster) (calls : List ClusterCall) :
    (c.afterCalls calls).journal.countP JournalEntry.isWrite =
      c.journal.countP JournalEntry.isWrite + (c.writes calls).length := by
  induction calls generalizing c with
  | nil => rfl
  | cons call rest ih =>
    change ((call.after c).afterCalls rest).journal.countP _ = _
    rw [ih, count_after, writes, List.length_append, Nat.add_assoc]

/-- Since a cluster was empty the counter is the number of writes in the journal, in a word. -/
theorem version_eq_count (calls : List ClusterCall) :
    (({} : Cluster).afterCalls calls).version.toNat =
      (({} : Cluster).afterCalls calls).journal.countP JournalEntry.isWrite % 2 ^ 64 := by
  have hcount := ({} : Cluster).count_afterCalls calls
  have hempty : ({} : Cluster).journal.countP JournalEntry.isWrite = 0 := rfl
  have hzero : ({} : Cluster).version = 0 := rfl
  rw [hempty, Nat.zero_add] at hcount
  rw [hcount, counter_afterCalls, hzero, UInt64.zero_add]
  exact UInt64.toNat_ofNat'

end Cluster

/-! ## Presence -/

/-- How it was settled last whether a key is there. -/
inductive KeyChange where
  | created
  | deleted
  | namespaceDeleted
  deriving DecidableEq

def KeyChange.present : KeyChange → Bool
  | created => true
  | deleted => false
  | namespaceDeleted => false

/-- What a call settles about a key, if it succeeds and concerns the key. A patch finds its key
there and leaves it there. -/
def ClusterCall.change? (c : Cluster) (k : ObjectKey) : ClusterCall → Option KeyChange
  | request r ns name =>
    if r.key ns name = k ∧ (r.answer c ns name).isOk = true then
      match r.operation with
      | .create => some .created
      | .patch => none
      | .delete => some .deleted
    else none
  | deleteNamespaces scope =>
    if (c.deleteNamespaces scope).1.isOk = true ∧ k.ns ∈ c.ofScope scope then
      some .namespaceDeleted
    else none
  | _ => none

namespace Cluster

/-- What the calls of a history have settled about a key, the earliest first. -/
def changes (c : Cluster) (k : ObjectKey) : List ClusterCall → List KeyChange
  | [] => []
  | call :: rest => (call.change? c k).toList ++ (call.after c).changes k rest

/-- A call for an object settles the presence of its own key alone. -/
theorem isSome_call (c : Cluster) (k : ObjectKey) (r : Request) (ns name : String) :
    ((r.call c ns name).objects.get? k).isSome =
      (((ClusterCall.request r ns name).change? c k).map KeyChange.present).getD
        (c.objects.get? k).isSome := by
  have hs := c.settles_call ns name r
  unfold ClusterCall.change?
  dsimp only
  rcases ha : r.answer c ns name with e | held
  · rw [(hs.failed e ha).1]
    simp [Except.isOk, Except.toBool]
  · obtain ⟨hfound, hheld, hobj, -⟩ := hs.succeeded held ha
    rw [hobj]
    by_cases hk : r.key ns name = k
    · subst hk
      rw [if_pos rfl, if_pos ⟨rfl, rfl⟩, hheld]
      cases r with
      | create o => rfl
      | delete gvk => rfl
      | patch o =>
        have hold := hfound.mpr (by simp [Request.operation])
        simp [Request.operation, Request.stored, hold]
    · simp [hk]

theorem isSome_deleteNamespaces (c : Cluster) (k : ObjectKey) (scope : String) :
    ((c.deleteNamespaces scope).2.objects.get? k).isSome =
      (((ClusterCall.deleteNamespaces scope).change? c k).map KeyChange.present).getD
        (c.objects.get? k).isSome := by
  unfold ClusterCall.change? deleteNamespaces
  cases c.checkCall .delete with
  | error e => rfl
  | ok _ =>
    have htrue : (Except.ok () : Except ClusterError Unit).isOk = true := rfl
    dsimp only
    rw [Table.get?_keep]
    by_cases hk : k.ns ∈ c.ofScope scope
    · simp [hk, htrue, KeyChange.present]
    · simp [hk]

/-- A call leaves the presence of a key as it is, unless it settles it. -/
theorem isSome_after (c : Cluster) (k : ObjectKey) (call : ClusterCall) :
    ((call.after c).objects.get? k).isSome =
      ((call.change? c k).map KeyChange.present).getD (c.objects.get? k).isSome := by
  cases call with
  | request r ns name => exact c.isSome_call k r ns name
  | deleteNamespaces scope => exact c.isSome_deleteNamespaces k scope
  | createNamespaces scope count =>
    obtain ⟨namespaces, hcreate, -⟩ := c.createNamespaces_eq scope count
    change ((c.createNamespaces scope count).2.objects.get? k).isSome = _
    rw [hcreate]
    rfl
  | _ => rfl

/-- The last call that has settled the presence of a key decides. -/
theorem isSome_afterCalls (c : Cluster) (k : ObjectKey) (calls : List ClusterCall) :
    ((c.afterCalls calls).objects.get? k).isSome =
      ((c.changes k calls).getLast?.map KeyChange.present).getD (c.objects.get? k).isSome := by
  induction calls generalizing c with
  | nil => rfl
  | cons call rest ih =>
    change (((call.after c).afterCalls rest).objects.get? k).isSome = _
    rw [ih, isSome_after, changes, List.getLast?_append]
    -- a later call, if there is one, hides what this call has settled
    rcases ((call.after c).changes k rest).getLast? with _ | later
    · cases call.change? c k <;> rfl
    · rfl

/-- In a history of fewer writes than there are versions no object has the version of the next
write, so that a call that succeeds never leaves its key as it was. -/
theorem get?_call_ne {calls : List ClusterCall} {r : Request} {ns name : String}
    {held : Option Object}
    (hlt : (({} : Cluster).afterCalls calls).journal.countP JournalEntry.isWrite + 1 < 2 ^ 64)
    (h : r.answer (({} : Cluster).afterCalls calls) ns name = .ok held) :
    (r.call (({} : Cluster).afterCalls calls) ns name).objects.get? (r.key ns name) ≠
      (({} : Cluster).afterCalls calls).objects.get? (r.key ns name) := by
  have hcount := ({} : Cluster).count_afterCalls calls
  have hcounted := version_eq_count calls
  obtain ⟨⟨number, hnumbered⟩, -, -⟩ :=
    (numbered_empty fun _ => 0).afterCalls calls (by
      have hzero : (({} : Cluster).journal.countP JournalEntry.isWrite) = 0 := rfl
      have hversion : ({} : Cluster).version.toNat = 0 := rfl
      omega)
  generalize ({} : Cluster).afterCalls calls = c at *
  obtain ⟨hfound, hheld, hobj, -⟩ := (c.settles_call ns name r).succeeded held h
  rw [hobj, if_pos rfl, hheld]
  intro heq
  cases r with
  | create o =>
    rw [← heq] at hfound
    simp [Request.stored, Request.operation] at hfound
  | delete gvk =>
    rw [← heq] at hfound
    simp [Request.stored, Request.operation] at hfound
  | patch o =>
    have hversion := (hnumbered.agrees _ _ heq.symm).version
    have htaken := (hnumbered.taken _ _ heq.symm).2
    rw [resourceVersion?_stamp, Option.some.injEq] at hversion
    have hnext : (c.version + 1).toNat = number ((Request.patch o).key ns name) :=
      Text.toString_inj hversion
    rw [Nat.mod_eq_of_lt (by omega)] at hcounted
    rw [UInt64.toNat_add, UInt64.toNat_one, Nat.mod_eq_of_lt (by omega)] at hnext
    omega

end Cluster

/-- What the journal and the calls of a history that began empty tell of the cluster after it. -/
structure Cluster.ToldBy (c : Cluster) (calls : List ClusterCall) : Prop where
  version : c.version.toNat = c.journal.countP JournalEntry.isWrite % 2 ^ 64
  present : ∀ k, (c.objects.get? k).isSome = true ↔
    (({} : Cluster).changes k calls).getLast? = some .created
  changed : c.journal.countP JournalEntry.isWrite + 1 < 2 ^ 64 →
    ∀ (r : Request) (ns name : String) (held : Option Object), r.answer c ns name = .ok held →
      (r.call c ns name).objects.get? (r.key ns name) ≠ c.objects.get? (r.key ns name)

/-- A call for an object that fails leaves the objects and the counter as they are, one that
succeeds changes its own key and takes a version if it stores an object, and either way its entry is
added to the journal. So in every history of a cluster that began empty the counter is the number of
writes in the journal, in a word as the counter is one; a key is there exactly when the last call
that has settled its presence was a create; and as long as there are versions left every call that
succeeds changes what is held under its key. -/
theorem calls_journaled :
    (∀ (c : Cluster) (r : Request) (ns name : String),
      c.Settles (r.call c ns name) r ns name (r.answer c ns name)) ∧
    ∀ calls : List ClusterCall, (({} : Cluster).afterCalls calls).ToldBy calls := by
  refine ⟨fun c r ns name => c.settles_call ns name r, fun calls => ⟨?_, fun k => ?_, ?_⟩⟩
  · exact Cluster.version_eq_count calls
  · rw [Cluster.isSome_afterCalls]
    rcases (({} : Cluster).changes k calls).getLast? with _ | last
    · simp
    · cases last <;> simp [KeyChange.present]
  · intro hlt r ns name held h
    exact Cluster.get?_call_ne hlt h

theorem calls_journaled_sampleCalls :
    (({} : Cluster).afterCalls sampleCalls).version.toNat = 4 ∧
    ({} : Cluster).changes ⟨"run-1", "apps", "A", "a"⟩ sampleCalls = [.created, .namespaceDeleted] ∧
    (({} : Cluster).afterCalls sampleCalls).objects.get? ⟨"run-1", "apps", "A", "a"⟩ = none ∧
    ∀ (o : Object) (held : Option Object),
      (Request.patch o).answer (({} : Cluster).afterCalls sampleCalls) "ns" "d" = .ok held →
      ((Request.patch o).call (({} : Cluster).afterCalls sampleCalls) "ns" "d").objects.get?
          ((Request.patch o).key "ns" "d") ≠
        (({} : Cluster).afterCalls sampleCalls).objects.get? ((Request.patch o).key "ns" "d") := by
  have hwrites :
      (({} : Cluster).afterCalls sampleCalls).journal.countP JournalEntry.isWrite = 4 := by
    decide +kernel
  have hchanges : ({} : Cluster).changes ⟨"run-1", "apps", "A", "a"⟩ sampleCalls =
      [.created, .namespaceDeleted] := by decide +kernel
  obtain ⟨hversion, hpresent, hchanged⟩ := calls_journaled.2 sampleCalls
  refine ⟨?_, hchanges, ?_, fun o held h => ?_⟩
  · rw [hversion, hwrites]
    decide
  · have hgone := hpresent ⟨"run-1", "apps", "A", "a"⟩
    rw [hchanges] at hgone
    simpa using hgone
  · rw [hwrites] at hchanged
    exact hchanged (by decide) _ _ _ held h

end ReplicaLoad

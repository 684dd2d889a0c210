-- Histories of a cluster. Any calls for objects and for namespaces, one after
-- another, with failures injected between them. A call stores one object under
-- the key that it computes from the object, drops some keys, or leaves the
-- objects alone. Only a write takes a version, so that the counter is the
-- number of writes, each write has a version of its own, and a stored object
-- keeps saying what its key says.
import Mathlib.Algebra.GroupWithZero.Nat
import Mathlib.Logic.Function.Basic
import ReplicaLoad.Cluster.Namespaces
import ReplicaLoad.Proofs.ObjectCalls

namespace ReplicaLoad

/-- What can happen to a cluster. -/
inductive ClusterCall where
  | request (r : Request) (ns name : String)
  | listNamespaces (scope : String)
  | createNamespaces (scope : String) (count : Nat)
  | deleteNamespaces (scope : String)
  | addNamespace (ns : String)
  | injectFailure (name : String)
  | injectNamespaceFailure (call : NamespaceCall)

namespace ClusterCall

def after (c : Cluster) : ClusterCall → Cluster
  | request r ns name => r.call c ns name
  -- the answer to a list is read from the cluster, which stays as it is
  | listNamespaces _ => c
  | createNamespaces scope count => (c.createNamespaces scope count).2
  | deleteNamespaces scope => (c.deleteNamespaces scope).2
  | addNamespace ns => c.addNamespace ns
  | injectFailure name => c.injectFailure name
  | injectNamespaceFailure call => c.injectNamespaceFailure call

/-- The object that a call returns, if it is a write and succeeds. -/
def returned? (c : Cluster) : ClusterCall → Option Object
  | request (.create o) ns name => (c.create ns name o).1.toOption
  | request (.patch o) ns name => (c.patch ns name o).1.toOption
  | _ => none

end ClusterCall

namespace Cluster

def afterCalls (c : Cluster) (calls : List ClusterCall) : Cluster := calls.foldl ClusterCall.after c

/-- The objects that the successful writes among some calls return, in their order. -/
def writes (c : Cluster) : List ClusterCall → List Object
  | [] => []
  | call :: rest => (call.returned? c).toList ++ (call.after c).writes rest

theorem afterCalls_append (c : Cluster) (calls more : List ClusterCall) :
    c.afterCalls (calls ++ more) = (c.afterCalls calls).afterCalls more :=
  List.foldl_append

theorem writes_append (c : Cluster) (calls more : List ClusterCall) :
    c.writes (calls ++ more) = c.writes calls ++ (c.afterCalls calls).writes more := by
  induction calls generalizing c with
  | nil => rfl
  | cons call rest ih =>
    rw [List.cons_append, writes, ih, ← List.append_assoc]
    rfl

/-! ## What one call does -/

/-- What becomes of the objects and of the counter in a call, and what is written in it. -/
inductive Moves (c : Cluster) : Option Object → Cluster → Prop
  | write {c'} (ns name : String) (o : Object) :
      c'.version = c.version + 1 →
      c'.objects = c.objects.put (key ns o.groupVersionKind name)
        (stamp (c.version + 1) ns name o) →
      Moves c (some (stamp (c.version + 1) ns name o)) c'
  | drop {c'} (test : ObjectKey → Bool) :
      c'.version = c.version → c'.objects = c.objects.keep test → Moves c none c'
  | rest {c'} : c'.version = c.version → c'.objects = c.objects → Moves c none c'

theorem moves_create (c : Cluster) (ns name : String) (o : Object) :
    c.Moves (c.create ns name o).1.toOption (c.create ns name o).2 := by
  unfold create
  dsimp only
  split
  · exact .rest rfl rfl
  · split
    · exact .rest rfl rfl
    · exact .write ns name o rfl rfl

theorem moves_patch (c : Cluster) (ns name : String) (o : Object) :
    c.Moves (c.patch ns name o).1.toOption (c.patch ns name o).2 := by
  unfold patch
  dsimp only
  split
  · exact .rest rfl rfl
  · split
    · exact .rest rfl rfl
    · exact .write ns name o rfl rfl

theorem moves_delete (c : Cluster) (gvk : GroupVersionKind) (ns name : String) :
    c.Moves none (c.delete gvk ns name).2 := by
  unfold delete
  dsimp only
  split
  · exact .rest rfl rfl
  · split
    · exact .rest rfl rfl
    · exact .drop (fun k => !decide (k = key ns gvk name)) rfl rfl

/-- Namespaces are registered without a look at the objects. -/
theorem moves_registerAll (c : Cluster) (names : List String) :
    (c.registerAll names).2.version = c.version ∧
      (c.registerAll names).2.objects = c.objects := by
  induction names generalizing c with
  | nil => exact ⟨rfl, rfl⟩
  | cons name rest ih =>
    unfold registerAll
    split
    · exact ⟨rfl, rfl⟩
    · exact ih (c.addNamespace name)

theorem moves_createNamespaces (c : Cluster) (scope : String) (count : Nat) :
    c.Moves none (c.createNamespaces scope count).2 := by
  unfold createNamespaces
  split
  · exact .rest rfl rfl
  · obtain ⟨hv, ho⟩ := c.moves_registerAll ((List.range' 1 count).map (indexedName scope))
    exact .rest hv ho

theorem moves_deleteNamespaces (c : Cluster) (scope : String) :
    c.Moves none (c.deleteNamespaces scope).2 := by
  unfold deleteNamespaces
  split
  · exact .rest rfl rfl
  · exact .drop (fun k => !(c.ofScope scope).contains k.ns) rfl rfl

theorem moves (c : Cluster) (call : ClusterCall) : c.Moves (call.returned? c) (call.after c) := by
  cases call with
  | request r ns name =>
    cases r with
    | create o => exact c.moves_create ns name o
    | patch o => exact c.moves_patch ns name o
    | delete gvk => exact c.moves_delete gvk ns name
  | listNamespaces scope => exact .rest rfl rfl
  | createNamespaces scope count => exact c.moves_createNamespaces scope count
  | deleteNamespaces scope => exact c.moves_deleteNamespaces scope
  | addNamespace ns => exact .rest rfl rfl
  | injectFailure name => exact .rest rfl rfl
  | injectNamespaceFailure call => exact .rest rfl rfl

end Cluster

/-! ## Objects that agree with their keys -/

/-- An object says what its key says, and its version is the decimal text of a number. -/
structure Object.Agrees (o : Object) (k : ObjectKey) (n : Nat) : Prop where
  kind : o.kind = k.kind
  group : o.groupVersionKind.group = k.group
  name : o.name? = some k.name
  ns : k.ns ≠ "" → o.namespace? = some k.ns
  version : o.resourceVersion? = some (toString n)

/-- Whatever the object was, its stamp makes it agree with the key under which it is stored. -/
theorem agrees_stamp (version : UInt64) (ns name : String) (o : Object) :
    (Cluster.stamp version ns name o).Agrees (Cluster.key ns o.groupVersionKind name)
      version.toNat where
  kind := by
    rw [← Object.kind_groupVersionKind, groupVersionKind_stamp]
    rfl
  group := by
    rw [groupVersionKind_stamp]
    rfl
  name := name?_stamp version ns name o
  ns := fun h => (namespace?_stamp version ns name o).trans (if_neg h)
  version := resourceVersion?_stamp version ns name o

/-- The stored objects agree with their keys, and have different versions of those that were taken
so far. -/
structure Cluster.Numbered (c : Cluster) (number : ObjectKey → Nat) : Prop where
  agrees : ∀ k o, c.objects.get? k = some o → o.Agrees k (number k)
  taken : ∀ k o, c.objects.get? k = some o → 1 ≤ number k ∧ number k ≤ c.version.toNat
  distinct : ∀ k k' o o', c.objects.get? k = some o → c.objects.get? k' = some o' →
    number k = number k' → k = k'

namespace Cluster

variable {c c' : Cluster} {number : ObjectKey → Nat}

theorem numbered_empty (number : ObjectKey → Nat) : ({} : Cluster).Numbered number where
  agrees := fun _ _ h => nomatch h
  taken := fun _ _ h => nomatch h
  distinct := fun _ _ _ _ h => nomatch h

/-- Fewer objects and the same counter. -/
theorem Numbered.fewer (h : c.Numbered number) (hv : c'.version = c.version)
    (hf : ∀ k o, c'.objects.get? k = some o → c.objects.get? k = some o) :
    c'.Numbered number where
  agrees := fun k o hk => h.agrees k o (hf k o hk)
  taken := fun k o hk => hv ▸ h.taken k o (hf k o hk)
  distinct := fun k k' o o' hk hk' => h.distinct k k' o o' (hf k o hk) (hf k' o' hk')

/-- A write gives its key the next number, which no other object has. -/
theorem Numbered.put (h : c.Numbered number) {k : ObjectKey} {o : Object} {n : Nat}
    (ho : o.Agrees k n) (hn : n = c.version.toNat + 1) (hv : c'.version.toNat = n)
    (hobj : c'.objects = c.objects.put k o) : c'.Numbered (Function.update number k n) := by
  have hget (k' : ObjectKey) (o' : Object) (hk' : c'.objects.get? k' = some o') :
      (k' = k ∧ o' = o) ∨ (k' ≠ k ∧ c.objects.get? k' = some o') := by
    rw [hobj, Table.get?_put] at hk'
    split at hk'
    · rename_i he
      exact .inl ⟨he.symm, (Option.some.inj hk').symm⟩
    · rename_i hne
      exact .inr ⟨Ne.symm hne, hk'⟩
  refine ⟨fun k' o' hk' => ?_, fun k' o' hk' => ?_, fun k₁ k₂ o₁ o₂ h₁ h₂ he => ?_⟩
  · obtain ⟨rfl, rfl⟩ | ⟨hne, hold⟩ := hget k' o' hk'
    · simpa using ho
    · simpa [hne] using h.agrees k' o' hold
  · obtain ⟨rfl, rfl⟩ | ⟨hne, hold⟩ := hget k' o' hk'
    · simp only [Function.update_self]
      omega
    · have := h.taken k' o' hold
      simp only [ne_eq, hne, not_false_eq_true, Function.update_of_ne]
      omega
  · -- an older object has a number up to the old counter
    obtain ⟨rfl, rfl⟩ | ⟨hne₁, hold₁⟩ := hget k₁ o₁ h₁
    · obtain ⟨rfl, rfl⟩ | ⟨hne₂, hold₂⟩ := hget k₂ o₂ h₂
      · rfl
      · have := h.taken k₂ o₂ hold₂
        simp only [Function.update_self, ne_eq, hne₂, not_false_eq_true,
          Function.update_of_ne] at he
        omega
    · obtain ⟨rfl, rfl⟩ | ⟨hne₂, hold₂⟩ := hget k₂ o₂ h₂
      · have := h.taken k₁ o₁ hold₁
        simp only [Function.update_self, ne_eq, hne₁, not_false_eq_true,
          Function.update_of_ne] at he
        omega
      · simp only [ne_eq, hne₁, hne₂, not_false_eq_true, Function.update_of_ne] at he
        exact h.distinct k₁ k₂ o₁ o₂ hold₁ hold₂ he

/-! ## Histories -/

/-- The texts of some versions one after another, from a counter on. -/
def versionTexts (counter count : Nat) : List (Option String) :=
  (List.range' (counter + 1) count).map fun n => some (toString n)

/-- Only a write moves the counter, by one. -/
theorem Moves.counter {written : Option Object} (hm : c.Moves written c') :
    c'.version = c.version + UInt64.ofNat written.toList.length := by
  cases hm with
  | write ns name o hv ho => exact hv
  | drop test hv ho => exact hv.trans (UInt64.add_zero _).symm
  | rest hv ho => exact hv.trans (UInt64.add_zero _).symm

/-- So the counter counts the writes of a history, in a word. -/
theorem counter_afterCalls (c : Cluster) (calls : List ClusterCall) :
    (c.afterCalls calls).version = c.version + UInt64.ofNat (c.writes calls).length := by
  induction calls generalizing c with
  | nil => exact (UInt64.add_zero _).symm
  | cons call rest ih =>
    rw [writes, List.length_append, UInt64.ofNat_add, ← UInt64.add_assoc, ← (c.moves call).counter]
    exact ih (call.after c)

/-- A counter that does not wrap around. -/
theorem toNat_add_count {version : UInt64} {count : Nat} (h : version.toNat + count < 2 ^ 64) :
    (version + UInt64.ofNat count).toNat = version.toNat + count := by
  rw [UInt64.toNat_add, UInt64.toNat_ofNat', Nat.add_mod_mod]
  exact Nat.mod_eq_of_lt h

theorem Moves.version {written : Option Object} (hm : c.Moves written c')
    (hlt : c.version.toNat + written.toList.length < 2 ^ 64) :
    c'.version.toNat = c.version.toNat + written.toList.length := by
  rw [hm.counter]
  exact toNat_add_count hlt

theorem version_afterCalls (c : Cluster) (calls : List ClusterCall)
    (hlt : c.version.toNat + (c.writes calls).length < 2 ^ 64) :
    (c.afterCalls calls).version.toNat = c.version.toNat + (c.writes calls).length := by
  rw [counter_afterCalls]
  exact toNat_add_count hlt

/-- A write stamps where the counter moves to. -/
theorem Moves.texts {written : Option Object} (hm : c.Moves written c')
    (hlt : c.version.toNat + written.toList.length < 2 ^ 64) :
    written.toList.map Object.resourceVersion? =
      versionTexts c.version.toNat written.toList.length := by
  cases hm with
  | drop => rfl
  | rest => rfl
  | write ns name o hv ho =>
    have hnext : (c.version + 1).toNat = c.version.toNat + 1 := toNat_add_count hlt
    simp only [Option.toList_some, List.map_cons, List.map_nil, resourceVersion?_stamp,
      List.length_singleton, versionTexts, List.range'_one]
    rw [← hnext]
    rfl

/-- The writes of a history are stamped with versions one after another. -/
theorem map_version_writes (c : Cluster) (calls : List ClusterCall)
    (hlt : c.version.toNat + (c.writes calls).length < 2 ^ 64) :
    (c.writes calls).map Object.resourceVersion? =
      versionTexts c.version.toNat (c.writes calls).length := by
  induction calls generalizing c with
  | nil => rfl
  | cons call rest ih =>
    rw [writes, List.length_append] at hlt
    have hm := c.moves call
    have hnext := hm.version (by omega)
    rw [writes, List.map_append, List.length_append, hm.texts (by omega), ih _ (by omega), hnext]
    unfold versionTexts
    rw [← List.map_append, Nat.add_right_comm, List.range'_append_1]

/-- A write of a history is stamped with a version past the counter before it. -/
theorem version_of_mem_writes {c : Cluster} {calls : List ClusterCall} {o : Object}
    (hlt : c.version.toNat + (c.writes calls).length < 2 ^ 64) (ho : o ∈ c.writes calls) :
    ∃ n, o.resourceVersion? = some (toString n) ∧ c.version.toNat < n ∧
      n ≤ (c.afterCalls calls).version.toNat := by
  have hversion := c.version_afterCalls calls hlt
  have hmem : o.resourceVersion? ∈ (c.writes calls).map Object.resourceVersion? :=
    List.mem_map_of_mem ho
  rw [c.map_version_writes calls hlt] at hmem
  obtain ⟨n, hn, heq⟩ := List.mem_map.mp hmem
  rw [List.mem_range'_1] at hn
  refine ⟨n, heq.symm, ?_, ?_⟩
  · omega
  · omega

/-- A call keeps the objects in agreement. -/
theorem Numbered.move (h : c.Numbered number) {written : Option Object} (hm : c.Moves written c')
    (hlt : c.version.toNat + written.toList.length < 2 ^ 64) : ∃ number, c'.Numbered number := by
  cases hm with
  | drop test hv ho =>
    refine ⟨number, h.fewer hv fun k o hk => ?_⟩
    rw [ho, Table.get?_keep] at hk
    split at hk
    · exact hk
    · cases hk
  | rest hv ho => exact ⟨number, h.fewer hv fun k o hk => ho ▸ hk⟩
  | write ns name o hv ho =>
    have hnext : (c.version + 1).toNat = c.version.toNat + 1 := toNat_add_count hlt
    exact ⟨_, h.put (agrees_stamp (c.version + 1) ns name o) hnext (by rw [hv]) ho⟩

/-- So does any history with few enough writes. -/
theorem Numbered.afterCalls (h : c.Numbered number) (calls : List ClusterCall)
    (hlt : c.version.toNat + (c.writes calls).length < 2 ^ 64) :
    (∃ number, (c.afterCalls calls).Numbered number) ∧
      (c.afterCalls calls).version.toNat = c.version.toNat + (c.writes calls).length ∧
      (c.writes calls).map Object.resourceVersion? =
        versionTexts c.version.toNat (c.writes calls).length := by
  refine ⟨?_, c.version_afterCalls calls hlt, c.map_version_writes calls hlt⟩
  -- a write changes the number of its key, so that each call has numbers of its own
  induction calls generalizing c number with
  | nil => exact ⟨number, h⟩
  | cons call rest ih =>
    rw [writes, List.length_append] at hlt
    have hm := c.moves call
    have hnext := hm.version (by omega)
    obtain ⟨number', h'⟩ := h.move hm (by omega)
    exact ih h' (by omega)

end Cluster

/-- Whatever happened to a cluster that began empty, each object in it agrees with its key, the
versions of the objects are different numbers from one to the counter, and every write has returned
a greater version than the writes before it. -/
theorem stored_as_keyed (calls : List ClusterCall)
    (h : (({} : Cluster).writes calls).length < 2 ^ 64) :
    (∃ number, (({} : Cluster).afterCalls calls).Numbered number) ∧
    ∃ versions : List Nat, versions.Pairwise (· < ·) ∧
      (({} : Cluster).writes calls).map Object.resourceVersion? =
        versions.map fun n => some (toString n) := by
  obtain ⟨hnumbered, -, htexts⟩ :=
    (Cluster.numbered_empty fun _ => 0).afterCalls calls (by simpa using h)
  exact ⟨hnumbered, _, List.pairwise_lt_range', htexts⟩

/-- An object without metadata, then one whose metadata are a text, with a refused call and the
calls of a run around them. -/
def sampleCalls : List ClusterCall :=
  let bare : Object := ⟨[("apiVersion", .text "apps/v1"), ("kind", .text "A")]⟩
  let odd : Object := ⟨[("kind", .text "B"), ("metadata", .text "none")]⟩
  [.createNamespaces "run" 1, .request (.create bare) "run-1" "a", .request (.create odd) "" "b",
    .request (.create odd) "" "b", .injectFailure "c", .request (.create odd) "run-1" "c",
    .request (.patch bare) "run-1" "a", .request (.create odd) "ns" "d",
    .request (.delete odd.groupVersionKind) "" "b", .deleteNamespaces "run"]

theorem stored_as_keyed_sampleCalls :
    (({} : Cluster).writes sampleCalls).map Object.resourceVersion? =
      [some "1", some "2", some "3", some "4"] ∧
    (({} : Cluster).afterCalls sampleCalls).objects.keys = [⟨"ns", "", "B", "d"⟩] ∧
    ∃ number, (({} : Cluster).afterCalls sampleCalls).Numbered number := by
  have hw : (({} : Cluster).writes sampleCalls).map Object.resourceVersion? =
      [some "1", some "2", some "3", some "4"] := by decide +kernel
  refine ⟨hw, by decide +kernel, (stored_as_keyed sampleCalls ?_).1⟩
  rw [← List.length_map Object.resourceVersion?, hw]
  decide

end ReplicaLoad

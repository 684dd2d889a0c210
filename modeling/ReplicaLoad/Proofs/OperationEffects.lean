-- Effects of operations. What an operation of an action leaves behind depends
-- on what the cluster holds for its replica alone. So as long as no two
-- operations work on one replica, each of them leaves behind what it would
-- leave behind in the cluster that all of them began with, in whatever order
-- they are done (`Ledger`).
import ReplicaLoad.Proofs.Interleaving
import ReplicaLoad.Proofs.ObjectCalls
import ReplicaLoad.Proofs.ReplicaNames

namespace ReplicaLoad

/-! ## One operation -/

/-- What an operation leaves behind. -/
structure Effect where
  error : Option RunError
  /-- Whether the action goes on after it. -/
  goesOn : Bool
  /-- The entry in the journal, if the cluster was called. -/
  entry : Option JournalEntry
  /-- What the cluster holds for the replica afterwards, up to the version. -/
  left : Option Object

namespace Environment

/-- Where the cluster keeps the replica that an operation of an action works on. -/
def address (env : Environment) (a : Action) (op : ObjectOperation) : ObjectKey :=
  replicaKey (a.ns, env.group op.object) a.index

/-- The request of an operation, if there is one, is for the replica that it works on. -/
def Addresses (env : Environment) (a : Action) (op : ObjectOperation) : Prop :=
  ∀ r, env.request op.object a.index op.operation = .ok r →
    r.key a.ns (op.object.objectName a.index) = env.address a op

/-- The effect of an operation of an action in a cluster. -/
def effect (env : Environment) (c : Cluster) (a : Action) (op : ObjectOperation) : Effect :=
  match env.request op.object a.index op.operation with
  | .error e => ⟨some e, PhaseRun.goesOn a false, none, c.view (env.address a op)⟩
  | .ok r =>
    let name := op.object.objectName a.index
    match env.client.crash? name with
    | some reason => ⟨some (PhaseRun.crashed a reason), false, none, c.view (env.address a op)⟩
    | none =>
      let refused := c.refusal r a.ns name
      { error := refused.map (r.runError a.ns name)
        goesOn := PhaseRun.goesOn a refused.isNone
        entry := some ⟨r.operation, a.ns, r.groupVersionKind.kind, name, refused.isNone⟩
        left := if refused = none then r.written a.ns name else c.view (env.address a op) }

variable {env : Environment} {a : Action} {op : ObjectOperation}

/-- An operation depends on what is held for its replica alone. -/
theorem effect_congr {c c' : Cluster} (ha : env.Addresses a op)
    (hf : c'.failingNames = c.failingNames)
    (hv : c'.view (env.address a op) = c.view (env.address a op)) :
    env.effect c' a op = env.effect c a op := by
  unfold effect
  cases hr : env.request op.object a.index op.operation with
  | error e => rw [hv]
  | ok r =>
    have hrefusal : c'.refusal r a.ns (op.object.objectName a.index) =
        c.refusal r a.ns (op.object.objectName a.index) := by
      unfold Cluster.refusal
      rw [hf, ha r hr, hv]
    simp only [hrefusal, hv]

end Environment

structure Cluster.Affected (c c' : Cluster) (key : ObjectKey) (f : Effect) : Prop where
  failingNames : c'.failingNames = c.failingNames
  journal : c'.journal = c.journal ++ f.entry.toList
  view : ∀ k, c'.view k = if key = k then f.left else c.view k

theorem Cluster.affected_self (c : Cluster) (key : ObjectKey) (error : Option RunError)
    (goesOn : Bool) : c.Affected c key ⟨error, goesOn, none, c.view key⟩ where
  failingNames := rfl
  journal := by simp
  view := by
    intro k
    split
    · rename_i hk
      rw [hk]
    · rfl

variable {env : Environment} {a : Action} {op : ObjectOperation}

/-- An operation has its effect. -/
theorem World.perform_effect (w : World) (hc : env.client.returned = id)
    (ha : env.Addresses a op) :
    (w.perform env a op).error = (env.effect w.cluster a op).error ∧
    (w.perform env a op).goesOn = (env.effect w.cluster a op).goesOn ∧
    w.cluster.Affected (w.perform env a op).world.cluster (env.address a op)
      (env.effect w.cluster a op) := by
  unfold World.perform Environment.effect
  cases hr : env.request op.object a.index op.operation with
  | error e => exact ⟨rfl, rfl, w.cluster.affected_self _ _ _⟩
  | ok r =>
    dsimp only
    cases env.client.crash? (op.object.objectName a.index) with
    | some reason => exact ⟨rfl, rfl, w.cluster.affected_self _ _ _⟩
    | none =>
      -- the request is sent, and what the cluster answers is what the effect tells
      obtain ⟨hans, herr⟩ :=
        w.send_answers hc a.ns (op.object.objectName a.index) r
      have haffected : w.cluster.Affected
          (w.send env.client a.ns (op.object.objectName a.index) r).2.cluster (env.address a op)
          { error := (w.cluster.refusal r a.ns (op.object.objectName a.index)).map
              (r.runError a.ns (op.object.objectName a.index))
            goesOn := PhaseRun.goesOn a
              (w.cluster.refusal r a.ns (op.object.objectName a.index)).isNone
            entry := some ⟨r.operation, a.ns, r.groupVersionKind.kind,
              op.object.objectName a.index,
              (w.cluster.refusal r a.ns (op.object.objectName a.index)).isNone⟩
            left := if w.cluster.refusal r a.ns (op.object.objectName a.index) = none then
                r.written a.ns (op.object.objectName a.index)
              else w.cluster.view (env.address a op) } := by
        refine ⟨hans.failingNames, hans.journal, fun k => ?_⟩
        rw [hans.view, ha r hr]
        by_cases hk : env.address a op = k
        · simp [hk]
        · simp [hk]
      rcases hs : w.send env.client a.ns (op.object.objectName a.index) r with ⟨e, w'⟩
      rw [hs] at herr haffected
      cases href : w.cluster.refusal r a.ns (op.object.objectName a.index) with
      | none =>
        rw [href] at herr haffected
        obtain rfl : e = none := herr
        exact ⟨rfl, rfl, haffected⟩
      | some refused =>
        rw [href] at herr haffected
        obtain rfl : e = some (r.runError a.ns (op.object.objectName a.index) refused) := herr
        exact ⟨rfl, rfl, haffected⟩

/-! ## Many operations -/

namespace Environment

/-- The effects of the operations of an action, up to the one that ends it. -/
def effectsOf (env : Environment) (c : Cluster) (a : Action) :
    List ObjectOperation → List (ObjectKey × Effect)
  | [] => []
  | op :: rest =>
    (env.address a op, env.effect c a op) ::
      if (env.effect c a op).goesOn then effectsOf env c a rest else []

/-- The effects of an action, with the replicas that they are for. -/
def effects (env : Environment) (c : Cluster) (a : Action) : List (ObjectKey × Effect) :=
  env.effectsOf c a a.operations

def addresses (env : Environment) (a : Action) : List ObjectKey := a.operations.map (env.address a)

theorem effectsOf_with (c : Cluster) (operations ops : List ObjectOperation) :
    env.effectsOf c { a with operations } ops = env.effectsOf c a ops := by
  induction ops with
  | nil => rfl
  | cons op rest ih =>
    unfold effectsOf
    rw [ih]
    rfl

theorem mem_effects {c : Cluster} {x : ObjectKey × Effect} (hx : x ∈ env.effects c a) :
    ∃ op ∈ a.operations, x = (env.address a op, env.effect c a op) := by
  unfold effects at hx
  generalize a.operations = ops at hx ⊢
  induction ops with
  | nil => cases hx
  | cons op rest ih =>
    unfold effectsOf at hx
    rcases List.mem_cons.mp hx with rfl | hx
    · exact ⟨op, List.mem_cons_self, rfl⟩
    · split at hx
      · obtain ⟨op', hop', rfl⟩ := ih hx
        exact ⟨op', List.mem_cons_of_mem _ hop', rfl⟩
      · cases hx

/-- An action that always goes on does all its operations. -/
theorem effects_of_goesOn {c : Cluster}
    (h : ∀ op ∈ a.operations, (env.effect c a op).goesOn = true) :
    env.effects c a = a.operations.map fun op => (env.address a op, env.effect c a op) := by
  unfold effects
  generalize a.operations = ops at h ⊢
  induction ops with
  | nil => rfl
  | cons op rest ih =>
    unfold effectsOf
    rw [if_pos (h op List.mem_cons_self), ih fun op' hop' => h op' (List.mem_cons_of_mem _ hop')]
    rfl

end Environment

/-- What is left of an action after its first operation. -/
theorem effects_remains {c : Cluster} {rest : List ObjectOperation} {done : Performed}
    (ho : a.operations = op :: rest) (hg : done.goesOn = (env.effect c a op).goesOn) :
    env.effects c a =
      (env.address a op, env.effect c a op) :: (done.remains a rest).flatMap (env.effects c) := by
  unfold Environment.effects Performed.remains
  rw [ho, Environment.effectsOf, hg]
  split
  · rw [List.flatMap_singleton]
    exact congrArg _ (Environment.effectsOf_with c rest rest).symm
  · rfl

theorem addresses_remains {rest : List ObjectOperation} (done : Performed)
    (ho : a.operations = op :: rest) :
    (env.address a op :: (done.remains a rest).flatMap env.addresses).Sublist
      (env.addresses a) := by
  unfold Environment.addresses Performed.remains
  rw [ho, List.map_cons]
  refine List.Sublist.cons_cons _ ?_
  split
  · rw [List.flatMap_singleton]
    rfl
  · exact List.nil_sublist _

/-- The books of a run of actions that began with a cluster: the effects so far and those that are
still to come. -/
structure Ledger (env : Environment) (c₀ : Cluster) (base : List RunError)
    (all : List (ObjectKey × Effect)) (c : Cluster) (errors : List RunError) (actions : List Action)
    (done : List (ObjectKey × Effect)) : Prop where
  all : (done ++ actions.flatMap (env.effects c₀)).Perm all
  errors : errors.Perm (base ++ done.flatMap (·.2.error.toList))
  journal : c.journal = c₀.journal ++ done.flatMap (·.2.entry.toList)
  failingNames : c.failingNames = c₀.failingNames
  touched : ∀ x ∈ done, c.view x.1 = x.2.left
  untouched : ∀ k, k ∉ done.map (·.1) → c.view k = c₀.view k
  /-- No two operations are for one replica. -/
  keys : (done.map (·.1) ++ actions.flatMap env.addresses).Nodup
  addressed : ∀ a ∈ actions, ∀ op ∈ a.operations, env.Addresses a op

variable {c₀ c : Cluster} {base errors errors' : List RunError}
  {all done : List (ObjectKey × Effect)} {actions actions' others : List Action}

theorem Ledger.start (base : List RunError)
    (hkeys : (actions.flatMap env.addresses).Nodup)
    (ha : ∀ a ∈ actions, ∀ op ∈ a.operations, env.Addresses a op) :
    Ledger env c₀ base (actions.flatMap (env.effects c₀)) c₀ base actions [] where
  all := .refl _
  errors := by simp
  journal := by simp
  failingNames := rfl
  touched := by simp
  untouched := fun _ _ => rfl
  keys := hkeys
  addressed := ha

theorem Ledger.congr (h : Ledger env c₀ base all c errors actions done)
    (he : errors'.Perm errors) (ha : actions'.Perm actions) :
    Ledger env c₀ base all c errors' actions' done where
  all := ((ha.flatMap_right _).append_left _).trans h.all
  errors := he.trans h.errors
  journal := h.journal
  failingNames := h.failingNames
  touched := h.touched
  untouched := h.untouched
  keys := (((ha.flatMap_right _).append_left _).nodup_iff).mpr h.keys
  addressed := fun a hm => h.addressed a (ha.subset hm)

/-- An action that has no operations left is dropped. -/
theorem Ledger.finish (h : Ledger env c₀ base all c errors (a :: others) done)
    (ho : a.operations = []) : Ledger env c₀ base all c errors others done where
  all := by
    have hall := h.all
    rwa [List.flatMap_cons, Environment.effects, ho] at hall
  errors := h.errors
  journal := h.journal
  failingNames := h.failingNames
  touched := h.touched
  untouched := h.untouched
  keys := by
    have hkeys := h.keys
    rwa [List.flatMap_cons, Environment.addresses, ho] at hkeys
  addressed := fun a hm => h.addressed a (List.mem_cons_of_mem _ hm)

/-- An operation is entered in the books with the effect that it has in the first cluster. -/
theorem Ledger.perform (hc : env.client.returned = id) {w : World}
    (h : Ledger env c₀ base all w.cluster errors (a :: others) done)
    {rest : List ObjectOperation} (ho : a.operations = op :: rest) :
    Ledger env c₀ base all (w.perform env a op).world.cluster
      (errors ++ (w.perform env a op).error.toList)
      ((w.perform env a op).remains a rest ++ others)
      (done ++ [(env.address a op, env.effect c₀ a op)]) := by
  have ha := h.addressed a List.mem_cons_self op (by simp [ho])
  -- nobody has worked on the replica yet
  have hnew : env.address a op ∉ done.map (·.1) := by
    intro hm
    refine (List.nodup_append.mp h.keys).2.2 _ hm _ ?_ rfl
    exact List.mem_flatMap.mpr ⟨a, List.mem_cons_self, List.mem_map_of_mem (by simp [ho])⟩
  have heffect := Environment.effect_congr ha h.failingNames (h.untouched _ hnew)
  obtain ⟨herror, hgoes, haff⟩ := w.perform_effect hc ha
  rw [heffect] at herror hgoes haff
  constructor
  · -- the effect has moved from those to come to those so far
    refine List.Perm.trans (List.Perm.of_eq ?_) h.all
    rw [List.flatMap_append, List.flatMap_cons, effects_remains ho hgoes]
    simp
  · rw [herror, List.flatMap_append, ← List.append_assoc]
    refine List.Perm.append h.errors (List.Perm.of_eq ?_)
    simp
  · rw [haff.journal, h.journal, List.flatMap_append, ← List.append_assoc]
    simp
  · exact haff.failingNames.trans h.failingNames
  · intro x hx
    rw [haff.view]
    rcases List.mem_append.mp hx with hx | hx
    · have hne : env.address a op ≠ x.1 := fun he => hnew (he ▸ List.mem_map_of_mem hx)
      rw [if_neg hne]
      exact h.touched x hx
    · rw [List.mem_singleton.mp hx, if_pos rfl]
  · intro k hk
    simp only [List.map_append, List.map_cons, List.map_nil, List.mem_append, List.mem_singleton,
      not_or] at hk
    rw [haff.view, if_neg (Ne.symm hk.2)]
    exact h.untouched k hk.1
  · refine List.Nodup.sublist ?_ h.keys
    rw [List.map_append, List.append_assoc, List.flatMap_append, List.flatMap_cons]
    refine List.Sublist.append_left ?_ _
    exact (addresses_remains _ ho).append_right _
  · intro b hb
    rcases List.mem_append.mp hb with hb | hb
    · unfold Performed.remains at hb
      split at hb
      · rw [List.mem_singleton.mp hb]
        intro op' hop'
        exact h.addressed a List.mem_cons_self op' (by rw [ho]; exact List.mem_cons_of_mem _ hop')
      · cases hb
    · exact h.addressed b (List.mem_cons_of_mem _ hb)

end ReplicaLoad

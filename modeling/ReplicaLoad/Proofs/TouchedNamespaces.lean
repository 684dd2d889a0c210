-- The namespaces that steps touch. A phase works in the namespaces of its
-- range. It leaves the objects of every other namespace alone, and it neither
-- registers a namespace nor takes one away, whatever its operations do and in
-- whatever order they are done. So a test whose phases keep to some namespaces
-- changes no object outside them.
import ReplicaLoad.Proofs.ObjectCalls
import ReplicaLoad.Proofs.PhaseLanes
import ReplicaLoad.Run.Test

namespace ReplicaLoad

/-! ## Calls for objects -/

/-- What calls for objects in some namespaces leave as it was. -/
structure Cluster.KeepsTo (inside : String → Prop) (c c' : Cluster) : Prop where
  namespaces : c'.namespaces = c.namespaces
  failingCalls : c'.failingCalls = c.failingCalls
  objects : ∀ k, ¬ inside k.ns → c'.objects.get? k = c.objects.get? k

variable {inside : String → Prop}

namespace Cluster

variable {c c' c'' : Cluster}

theorem KeepsTo.refl (inside : String → Prop) (c : Cluster) : c.KeepsTo inside c :=
  ⟨rfl, rfl, fun _ _ => rfl⟩

theorem KeepsTo.trans (h : c.KeepsTo inside c') (h' : c'.KeepsTo inside c'') :
    c.KeepsTo inside c'' where
  namespaces := h'.namespaces.trans h.namespaces
  failingCalls := h'.failingCalls.trans h.failingCalls
  objects := fun k hk => (h'.objects k hk).trans (h.objects k hk)

/-- An entry in the journal touches no object. -/
theorem keepsTo_enter (c : Cluster) (op : Operation) (ns kind name : String) (succeeded : Bool) :
    c.KeepsTo inside (c.enter op ns kind name succeeded) :=
  ⟨rfl, rfl, fun _ _ => rfl⟩

variable {ns : String}

theorem keepsTo_write (c : Cluster) (h : inside ns) (name : String) (o : Object) :
    c.KeepsTo inside (c.write ns name o).2 where
  namespaces := rfl
  failingCalls := rfl
  objects := by
    intro k hk
    have hne : key ns o.groupVersionKind name ≠ k := fun he => hk (he ▸ h)
    exact (Table.get?_put _ _ _ _).trans (if_neg hne)

theorem keepsTo_create (c : Cluster) (h : inside ns) (name : String) (o : Object) :
    c.KeepsTo inside (c.create ns name o).2 := by
  unfold create
  dsimp only
  split
  · exact c.keepsTo_enter _ _ _ _ _
  · split
    · exact c.keepsTo_enter _ _ _ _ _
    · exact (c.keepsTo_write h name o).trans (keepsTo_enter _ _ _ _ _ _)

theorem keepsTo_patch (c : Cluster) (h : inside ns) (name : String) (o : Object) :
    c.KeepsTo inside (c.patch ns name o).2 := by
  unfold patch
  dsimp only
  split
  · exact c.keepsTo_enter _ _ _ _ _
  · split
    · exact c.keepsTo_enter _ _ _ _ _
    · exact (c.keepsTo_write h name o).trans (keepsTo_enter _ _ _ _ _ _)

theorem keepsTo_delete (c : Cluster) (gvk : GroupVersionKind) (h : inside ns) (name : String) :
    c.KeepsTo inside (c.delete gvk ns name).2 := by
  unfold delete
  dsimp only
  split
  · exact c.keepsTo_enter _ _ _ _ _
  · split
    · exact c.keepsTo_enter _ _ _ _ _
    · refine ⟨rfl, rfl, fun k hk => ?_⟩
      have hne : key ns gvk name ≠ k := fun he => hk (he ▸ h)
      exact (Table.get?_erase _ _ _).trans (if_neg hne)

end Cluster

namespace World

theorem keepsTo_send (w : World) (client : Client) {ns : String} (h : inside ns) (name : String)
    (r : Request) : w.cluster.KeepsTo inside (w.send client ns name r).2.cluster := by
  rw [cluster_send]
  cases r with
  | create o => exact w.cluster.keepsTo_create h name o
  | patch o => exact w.cluster.keepsTo_patch h name o
  | delete gvk => exact w.cluster.keepsTo_delete gvk h name

/-- An operation touches objects of the namespace of its action alone. -/
theorem keepsTo_perform (w : World) (env : Environment) {a : Action} (h : inside a.ns)
    (op : ObjectOperation) : w.cluster.KeepsTo inside (w.perform env a op).world.cluster := by
  rcases w.perform_cases env a op with ⟨_, -, -, hw⟩ | ⟨_, _, -, -, -, hw⟩ | ⟨r, -, -, -, hw⟩
  · rw [hw]
    exact .refl _ _
  · rw [hw]
    exact .refl _ _
  · rw [hw]
    exact w.keepsTo_send env.client h (op.object.objectName a.index) r

end World

/-! ## Phases -/

/-- A phase that is entering its counts has only planned for some namespaces, and only they are
left to it. -/
structure Enrolment.StaysIn (inside : String → Prop) (e : Enrolment) : Prop where
  ns : inside e.ns
  later : ∀ ns ∈ e.later, inside ns
  actions : ∀ a ∈ e.actions, inside a.ns

/-- Whatever a phase has still to do lies in some namespaces. -/
def PhaseState.StaysIn (env : Environment) (inside : String → Prop) : PhaseState → Prop
  | waiting p => ∀ ns ∈ namespaceList env.scope p.range, inside ns
  | reading e => e.StaysIn inside
  | writing e _ _ _ => e.StaysIn inside
  | acting _ actions _ => ∀ a ∈ actions, inside a.ns
  | committing _ _ => True
  | ended _ => True

variable {env : Environment}

theorem Enrolment.StaysIn.planned {e : Enrolment} (h : e.StaysIn inside) :
    ∀ a ∈ e.planned, inside a.ns := by
  intro a ha
  rcases List.mem_append.mp ha with ha | ha
  · exact h.actions a ha
  · rw [ns_of_mem_planNamespace ha]
    exact h.ns

theorem PhaseState.staysIn_dispatch {load : Load} {actions : List Action}
    {commits : List (GroupKey × Instances)} (h : ∀ a ∈ actions, inside a.ns) :
    (dispatch load actions commits).StaysIn env inside :=
  dispatch_induction (P := (·.StaysIn env inside)) h fun _ => trivial

theorem Enrolment.StaysIn.next {e : Enrolment} (h : e.StaysIn inside) :
    e.next.StaysIn env inside := by
  unfold Enrolment.next
  have hlater := h.later
  split
  · exact PhaseState.staysIn_dispatch h.planned
  · rename_i ns later heq
    rw [heq] at hlater
    exact ⟨hlater ns List.mem_cons_self, fun ns hn => hlater ns (List.mem_cons_of_mem _ hn),
      h.planned⟩

theorem ReadyPhase.staysIn_enrol {r : ReadyPhase} (h : ∀ ns ∈ r.namespaces, inside ns) :
    r.enrol.StaysIn env inside := by
  unfold ReadyPhase.enrol
  split
  · exact PhaseState.staysIn_dispatch nofun
  · rename_i ns later heq
    rw [heq] at h
    exact ⟨h ns List.mem_cons_self, fun ns hn => h ns (List.mem_cons_of_mem _ hn),
      fun _ ha => nomatch ha⟩

/-- A phase that begins works in the namespaces of its range. -/
theorem Environment.namespaces_of_ready {p : Phase} {r : ReadyPhase}
    (h : env.ready p = .ok (some r)) : r.namespaces = namespaceList env.scope p.range := by
  unfold Environment.ready at h
  split at h
  · cases h
  · rename_i hns
    split at h
    · cases h
    · split at h
      · cases h
      · cases h
        rfl

/-- A step of a phase stays in its namespaces. -/
theorem PhaseState.Step.keepsTo {w w' : World} {q q' : PhaseState}
    (hs : Step env env.performs w q w' q') (h : q.StaysIn env inside) :
    q'.StaysIn env inside ∧ w.cluster.KeepsTo inside w'.cluster := by
  cases hs with
  | refuse => exact ⟨trivial, .refl _ _⟩
  | idle => exact ⟨trivial, .refl _ _⟩
  | enrol hr =>
    refine ⟨ReadyPhase.staysIn_enrol ?_, .refl _ _⟩
    rw [Environment.namespaces_of_ready hr]
    exact h
  | read => exact ⟨⟨h.ns, h.later, h.actions⟩, .refl _ _⟩
  | write => exact ⟨⟨h.ns, h.later, h.actions⟩, .refl _ _⟩
  | next => exact ⟨Enrolment.StaysIn.next h, .refl _ _⟩
  | @operate errors before a op rest after commits done ho hdone =>
    have ha : inside a.ns := h a (by simp)
    obtain rfl : done = w.perform env a op := hdone
    refine ⟨fun b hb => ?_, w.keepsTo_perform env ha op⟩
    rcases List.mem_append.mp hb with hb | hb
    · exact h b (by simp [hb])
    · rcases List.mem_append.mp hb with hb | hb
      · unfold Performed.remains at hb
        split at hb
        · rw [List.mem_singleton.mp hb]
          exact ha
        · cases hb
      · exact h b (by simp [hb])
  | finish =>
    refine ⟨fun b hb => h b ?_, .refl _ _⟩
    rcases List.mem_append.mp hb with hb | hb
    · simp [hb]
    · simp [hb]
  | settle => exact ⟨trivial, .refl _ _⟩
  | commit => exact ⟨trivial, .refl _ _⟩
  | leave => exact ⟨trivial, .refl _ _⟩

namespace Interleaving

/-- Every interleaving of phases stays in their namespaces. -/
theorem keepsTo_of_reaches {t t' : Interleaving} (hr : Reaches env env.performs t t')
    (h : ∀ q ∈ t.phases, q.StaysIn env inside) :
    (∀ q ∈ t'.phases, q.StaysIn env inside) ∧
      t.world.cluster.KeepsTo inside t'.world.cluster := by
  induction hr with
  | refl => exact ⟨h, .refl _ _⟩
  | tail _ hs ih =>
    obtain ⟨hphases, hkeeps⟩ := ih
    obtain @⟨w, w', before, q, q', after, cs, hstep⟩ := hs
    obtain ⟨hq', hw'⟩ := hstep.keepsTo (hphases q (by simp))
    refine ⟨fun x hx => ?_, hkeeps.trans hw'⟩
    rcases List.mem_append.mp hx with hx | hx
    · exact hphases x (by simp [hx])
    · rcases List.mem_cons.mp hx with rfl | hx
      · exact hq'
      · exact hphases x (by simp [hx])

end Interleaving

/-! ## Steps and tests -/

namespace World

/-- Phases beside each other on a timeline stay in their namespaces. -/
theorem keepsTo_runPhases (w : World) (step : String) (now : Millis) {phases : List Phase}
    (h : ∀ p ∈ phases, ∀ ns ∈ namespaceList env.scope p.range, inside ns) :
    w.cluster.KeepsTo inside (w.runPhases env step now phases).2.1.cluster := by
  obtain ⟨t, hr, -, hw, -⟩ := Interleaving.runPhases_reached env step w now phases
  rw [← hw]
  refine (Interleaving.keepsTo_of_reaches hr fun q hq => ?_).2
  obtain ⟨p, hp, rfl⟩ := List.mem_map.mp hq
  exact h p hp

/-- A step touches the namespaces of its phases alone. Its measurements do not reach the cluster. -/
theorem keepsTo_runStep (w : World) (now : Millis) {s : Step}
    (h : ∀ p ∈ s.phases, ∀ ns ∈ namespaceList env.scope p.range, inside ns) :
    w.cluster.KeepsTo inside (w.runStep env now s).2.1.cluster := by
  unfold runStep
  split
  · exact w.keepsTo_runPhases s.displayName now h
  · exact .refl _ _

theorem keepsTo_runSteps (w : World) (now : Millis) (errors : ErrorList) {steps : List Step}
    (h : ∀ s ∈ steps, ∀ p ∈ s.phases, ∀ ns ∈ namespaceList env.scope p.range, inside ns) :
    w.cluster.KeepsTo inside (w.runSteps env now errors steps).2.1.cluster := by
  induction steps generalizing w now errors with
  | nil => exact .refl _ _
  | cons s rest ih =>
    have hs := w.keepsTo_runStep now (h s List.mem_cons_self)
    unfold runSteps
    dsimp only
    split
    · exact hs
    · exact hs.trans (ih _ _ _ fun s hm => h s (List.mem_cons_of_mem _ hm))

/-- What comes after the steps of a test, and before its cleanup, does not reach the cluster. -/
theorem keepsTo_runBody (w : World) (stamp : Nat → String) (files : FileTree) (now : Millis)
    {t : LoadTest}
    (h : ∀ s ∈ t.steps, ∀ p ∈ s.phases, ∀ ns ∈ namespaceList env.scope p.range, inside ns) :
    w.cluster.KeepsTo inside (w.runBody env stamp files now t).world.cluster := by
  have hs := w.keepsTo_runSteps now {} h
  unfold runBody
  dsimp only
  split
  · exact hs
  · exact hs

end World

end ReplicaLoad

-- Phases in order. Phases one after another, each with its actions in the order
-- of its plan. That is one of the interleavings; and from every moment of an
-- interleaving all phases can still return.
import ReplicaLoad.Proofs.Interleaving

namespace ReplicaLoad

/-! ## Running in order -/

namespace World

def runOperations (env : Environment) (a : Action) (w : World) :
    List ObjectOperation → List RunError × World
  | [] => ([], w)
  | op :: rest =>
    let done := w.perform env a op
    if done.goesOn then
      let (errors, w) := runOperations env a done.world rest
      (done.error.toList ++ errors, w)
    else (done.error.toList, done.world)

def runActions (env : Environment) (w : World) : List Action → List RunError × World
  | [] => ([], w)
  | a :: rest =>
    let (errors, w) := w.runOperations env a a.operations
    let (more, w) := runActions env w rest
    (errors ++ more, w)

/-- Run a phase with its actions in the order of its plan. -/
def runPhase (w : World) (env : Environment) (p : Phase) : UnitEnd × World :=
  match w.beginPhase env p with
  | (.refused e, w) => (.returned [e], w)
  | (.idle, w) => (.returned [], w)
  | (.crashed reason, w) => (.crashed reason, w)
  | (.planned q, w) =>
    let (errors, w) := w.runActions env q.actions
    (.returned errors, { w with instances := w.instances.commit q.commits })

def runPhasesInOrder (w : World) (env : Environment) : List Phase → List UnitEnd × World
  | [] => ([], w)
  | p :: rest =>
    let (e, w) := w.runPhase env p
    let (ends, w) := w.runPhasesInOrder env rest
    (e :: ends, w)

/-- Run the phases of a step one after another, each with its actions in the order of its plan. -/
def runInOrder (w : World) (env : Environment) (step : String) (phases : List Phase) :
    List RunError × World :=
  let (ends, w) := w.runPhasesInOrder env phases
  (united step ends, w)

end World

/-! ## The steps of one phase -/

namespace Enrolment

/-- A phase that has entered its counts in the namespace that it is at. -/
def fill (e : Enrolment) (s : InstanceStore) : Enrolment :=
  { e with left := [], aimed := e.aimed ++ (s.aimAll e.ns e.target e.left).1 }

/-- What a phase that is entering its counts will have planned and entered, if nobody else touches
the store meanwhile. -/
def finish (e : Enrolment) (s : InstanceStore) :
    List Action × List (GroupKey × Instances) × InstanceStore :=
  let rest := InstanceStore.plan e.bundle e.target (s.aimAll e.ns e.target e.left).2 e.later
  ((e.fill s).planned ++ rest.1, (e.fill s).entered ++ rest.2.1, rest.2.2)

theorem finish_read (e : Enrolment) (s : InstanceStore) {o : ObjectTemplate} {g : ReplicaGroup}
    {left : List (ObjectTemplate × ReplicaGroup)} (h : e.left = (o, g) :: left) :
    e.finish s = (add { e with left } o (e.ns, g) (s.aim (e.ns, g) o e.target)).finish
      (s.put (e.ns, g) (s.aim (e.ns, g) o e.target)) := by
  unfold finish fill add planned entered
  simp [h, InstanceStore.aimAll]

theorem finish_next (e : Enrolment) (s : InstanceStore) {ns : String} {later : List String}
    (hleft : e.left = []) (hlater : e.later = ns :: later) :
    e.finish s = finish { e with
      ns, later, left := e.bundle, aimed := [], actions := e.planned, commits := e.entered } s := by
  unfold finish fill planned entered
  simp [hleft, hlater, InstanceStore.aimAll, InstanceStore.plan]

theorem finish_last (e : Enrolment) (s : InstanceStore) (hleft : e.left = [])
    (hlater : e.later = []) : e.finish s = (e.planned, e.entered, s) := by
  unfold finish fill planned entered
  simp [hleft, hlater, InstanceStore.aimAll, InstanceStore.plan]

end Enrolment

theorem ReadyPhase.finish_first (r : ReadyPhase) (s : InstanceStore) {ns : String}
    {later : List String} (h : r.namespaces = ns :: later) :
    Enrolment.finish
      { load := r.load, target := r.target, bundle := r.bundle, ns, left := r.bundle, later } s =
      s.plan r.bundle r.target r.namespaces := by
  unfold Enrolment.finish Enrolment.fill Enrolment.planned Enrolment.entered
  simp [h, InstanceStore.plan]

namespace PhaseState

/-- The moments that a phase gets to on its own. -/
abbrev Goes (env : Environment) (may : Outcomes) :
    World × PhaseState → World × PhaseState → Prop :=
  Relation.ReflTransGen fun x y => Step env may x.1 x.2 y.1 y.2

theorem Goes.any {env : Environment} {x y : World × PhaseState} (h : Goes env env.performs x y) :
    Goes env .any x y :=
  Relation.ReflTransGen.mono (fun _ _ hs => Step.any hs) _ _ h

variable {env : Environment}

theorem Goes.step {may : Outcomes} {w w' : World} {q q' : PhaseState} {y : World × PhaseState}
    (h : Step env may w q w' q') (hy : Goes env may (w', q') y) : Goes env may (w, q) y :=
  Relation.ReflTransGen.head (b := (w', q')) h hy

/-- The next entry of a phase, once nothing else happens. -/
theorem entry_goes (w : World) (e : Enrolment) {o : ObjectTemplate} {g : ReplicaGroup}
    {left : List (ObjectTemplate × ReplicaGroup)} (h : e.left = (o, g) :: left) :
    Goes env env.performs (w, .reading e)
      ({ w with instances := w.instances.put (e.ns, g) (w.instances.aim (e.ns, g) o e.target) },
        .reading (Enrolment.add { e with left } o (e.ns, g)
          (w.instances.aim (e.ns, g) o e.target))) :=
  Goes.step (.read h) (Goes.step .write .refl)

/-- A phase enters its counts and dispatches its actions. -/
theorem reading_goes (w : World) (e : Enrolment) :
    Goes env env.performs (w, .reading e) ({ w with instances := (e.finish w.instances).2.2 },
      .dispatch e.load (e.finish w.instances).1 (e.finish w.instances).2.1) := by
  -- by the namespaces that are left, and by the entries that are left in each of them
  obtain ⟨later, hlater⟩ : ∃ later, e.later = later := ⟨_, rfl⟩
  induction later generalizing w e with
  | nil =>
    obtain ⟨left, hleft⟩ : ∃ left, e.left = left := ⟨_, rfl⟩
    induction left generalizing w e with
    | nil =>
      have hs : Step env env.performs w (.reading e) w e.next := .next hleft
      unfold Enrolment.next at hs
      rw [hlater] at hs
      rw [e.finish_last _ hleft hlater]
      exact Goes.step hs .refl
    | cons x left ih =>
      rw [e.finish_read _ hleft]
      refine (entry_goes w e hleft).trans ?_
      exact ih { w with instances := _ } _ hlater rfl
  | cons ns later ihn =>
    obtain ⟨left, hleft⟩ : ∃ left, e.left = left := ⟨_, rfl⟩
    induction left generalizing w e with
    | nil =>
      have hs : Step env env.performs w (.reading e) w e.next := .next hleft
      unfold Enrolment.next at hs
      rw [hlater] at hs
      rw [e.finish_next _ hleft hlater]
      exact Goes.step hs (ihn w _ rfl)
    | cons x left ih =>
      rw [e.finish_read _ hleft]
      refine (entry_goes w e hleft).trans ?_
      exact ih { w with instances := _ } _ hlater rfl

theorem enrol_goes (w : World) (r : ReadyPhase) :
    Goes env env.performs (w, r.enrol)
      ({ w with instances := (w.instances.plan r.bundle r.target r.namespaces).2.2 },
        .dispatch r.load (w.instances.plan r.bundle r.target r.namespaces).1
          (w.instances.plan r.bundle r.target r.namespaces).2.1) := by
  unfold ReadyPhase.enrol
  split
  · rename_i h
    rw [h]
    exact .refl
  · rename_i ns later h
    rw [← r.finish_first w.instances h]
    exact reading_goes w _

theorem runOperations_goes (w : World) (errors : List RunError) (a : Action)
    (operations : List ObjectOperation) (actions : List Action)
    (commits : List (GroupKey × Instances)) :
    Goes env env.performs (w, .acting errors ({ a with operations } :: actions) commits)
      ((w.runOperations env a operations).2,
        .acting (errors ++ (w.runOperations env a operations).1) actions commits) := by
  induction operations generalizing w errors with
  | nil =>
    rw [World.runOperations, List.append_nil]
    have hs : Step env env.performs
        w (.acting errors ([] ++ { a with operations := [] } :: actions) commits)
        w (.acting errors ([] ++ actions) commits) := .finish rfl
    exact Goes.step hs .refl
  | cons op rest ih =>
    have hs : Step env env.performs w
        (.acting errors ([] ++ { a with operations := op :: rest } :: actions) commits)
        (w.perform env a op).world
        (.acting (errors ++ (w.perform env a op).error.toList)
          ((w.perform env a op).remains a rest ++ actions) commits) := .operate rfl rfl
    refine Goes.step hs ?_
    -- the action goes on with the rest, or it is gone
    unfold World.runOperations Performed.remains
    dsimp only
    split
    · rw [← List.append_assoc]
      exact ih _ _
    · exact .refl

theorem runActions_goes (w : World) (errors : List RunError) (actions : List Action)
    (commits : List (GroupKey × Instances)) :
    Goes env env.performs (w, .acting errors actions commits)
      ((w.runActions env actions).2,
        .acting (errors ++ (w.runActions env actions).1) [] commits) := by
  induction actions generalizing w errors with
  | nil =>
    rw [World.runActions, List.append_nil]
  | cons a rest ih =>
    refine (runOperations_goes w errors a a.operations rest commits).trans ?_
    unfold World.runActions
    dsimp only
    rw [← List.append_assoc]
    exact ih _ _

theorem commit_goes (w : World) (e : UnitEnd) (commits : List (GroupKey × Instances)) :
    Goes env env.performs (w, .committing e commits)
      ({ w with instances := w.instances.commit commits }, .ended e) := by
  induction commits generalizing w with
  | nil => exact Goes.step .leave .refl
  | cons c rest ih =>
    exact Goes.step .commit (ih { w with instances := _ })

/-- Actions that are run in order, and the commit after them. -/
theorem acting_goes (w : World) (errors : List RunError) (actions : List Action)
    (commits : List (GroupKey × Instances)) :
    Goes env env.performs (w, .acting errors actions commits)
      ({ (w.runActions env actions).2 with
          instances := (w.runActions env actions).2.instances.commit commits },
        .ended (.returned (errors ++ (w.runActions env actions).1))) :=
  (runActions_goes w errors actions commits).trans (Goes.step .settle (commit_goes _ _ commits))

/-- A phase whose actions are dispatched comes to an end, if only by a crash. -/
theorem to_end_of_dispatch {x : World × PhaseState} {w : World} {load : Load}
    {actions : List Action} {commits : List (GroupKey × Instances)}
    (h : Goes env env.performs x (w, .dispatch load actions commits)) :
    ∃ w' e, Goes env env.performs x (w', .ended e) := by
  unfold dispatch at h
  split at h
  · exact ⟨_, _, h.trans (acting_goes w [] actions commits)⟩
  · exact ⟨_, _, h.trans (commit_goes w _ commits)⟩

def begun : PhaseStart → PhaseState
  | .refused e => .ended (.returned [e])
  | .idle => .ended (.returned [])
  | .crashed reason => .ended (.crashed reason)
  | .planned q => .acting [] q.actions q.commits

/-- A phase that begins takes steps of its own. -/
theorem beginPhase_goes (env : Environment) (w : World) (p : Phase) :
    Goes env env.performs (w, .waiting p)
      ((w.beginPhase env p).2, begun (w.beginPhase env p).1) := by
  unfold World.beginPhase
  cases h : env.ready p with
  | error e => exact Goes.step (.refuse h) .refl
  | ok r =>
    cases r with
    | none => exact Goes.step (.idle h) .refl
    | some r =>
      have hgoes := Goes.step (.enrol h) (enrol_goes w r)
      unfold dispatch at hgoes
      dsimp only
      split
      · rename_i pacing hp
        rw [Load.crash?_of_some hp] at hgoes
        exact hgoes
      · rename_i hp
        rw [Load.crash?_of_none hp] at hgoes
        exact hgoes.trans (commit_goes _ _ _)

/-- A phase that is run in order takes steps of its own. -/
theorem runPhase_goes (env : Environment) (w : World) (p : Phase) :
    Goes env env.performs (w, .waiting p) ((w.runPhase env p).2, .ended (w.runPhase env p).1) := by
  have hbegin := beginPhase_goes env w p
  unfold World.runPhase
  generalize w.beginPhase env p = b at hbegin ⊢
  obtain ⟨e | _ | reason | q, w'⟩ := b
  · exact hbegin
  · exact hbegin
  · exact hbegin
  · exact hbegin.trans (acting_goes _ [] _ _)

/-- A phase can always still come to an end. -/
theorem goes_to_end (env : Environment) (w : World) (q : PhaseState) :
    ∃ w' e, Goes env env.performs (w, q) (w', .ended e) := by
  cases q with
  | waiting p => exact ⟨_, _, runPhase_goes env w p⟩
  | reading e => exact to_end_of_dispatch (reading_goes w e)
  | writing e o key counts => exact to_end_of_dispatch (Goes.step .write (reading_goes _ _))
  | acting errors actions commits => exact ⟨_, _, acting_goes w errors actions commits⟩
  | committing e commits => exact ⟨_, _, commit_goes w e commits⟩
  | ended e => exact ⟨w, e, .refl⟩

end PhaseState

/-! ## Phases in order -/

namespace Interleaving

variable {env : Environment}

/-- The steps that a phase takes on its own are steps of every interleaving that it is part of. -/
theorem reaches_of_goes {x y : World × PhaseState} (h : PhaseState.Goes env env.performs x y)
    (before after : List PhaseState) (commits : List (Nat × GroupKey)) :
    ∃ more, Reaches env env.performs ⟨x.1, before ++ x.2 :: after, commits⟩
      ⟨y.1, before ++ y.2 :: after, commits ++ more⟩ := by
  induction h with
  | refl => exact ⟨[], by rw [List.append_nil]⟩
  | @tail y z _ hs ih =>
    obtain ⟨more, ih⟩ := ih
    refine ⟨more ++ (y.2.commits?.map (before.length, ·)).toList, ?_⟩
    rw [← List.append_assoc]
    exact ih.tail (.mk hs)

/-- Whatever has happened, all phases can still come to an end. -/
theorem exists_ended (env : Environment) (t : Interleaving) :
    ∃ t', Reaches env env.performs t t' ∧ t'.Ended := by
  obtain ⟨w, phases, commits⟩ := t
  -- one phase after another, those that have returned before those that have not
  suffices h : ∀ (rest before : List PhaseState) (w : World) (commits : List (Nat × GroupKey)),
      (∀ q ∈ before, q.isEnded = true) →
        ∃ t', Reaches env env.performs ⟨w, before ++ rest, commits⟩ t' ∧ t'.Ended from
    h phases [] w commits (by simp)
  intro rest
  induction rest with
  | nil =>
    intro before w commits hb
    exact ⟨_, .refl, by simpa [Ended] using hb⟩
  | cons q rest ih =>
    intro before w commits hb
    obtain ⟨w', e, hq⟩ := PhaseState.goes_to_end env w q
    obtain ⟨more, hr⟩ := reaches_of_goes hq before rest commits
    have hb' : ∀ q ∈ before ++ [.ended e], q.isEnded = true := by
      intro q hq
      rcases List.mem_append.mp hq with hq | hq
      · exact hb q hq
      · rw [List.mem_singleton.mp hq]
        rfl
    obtain ⟨t', ht, he⟩ := ih (before ++ [.ended e]) w' (commits ++ more) hb'
    rw [List.append_assoc] at ht
    exact ⟨t', hr.trans ht, he⟩

/-- Phases in order are one of the interleavings. -/
theorem runInOrder_reached (env : Environment) (step : String) (w : World)
    (phases : List Phase) :
    ∃ t, Reaches env env.performs (start w phases) t ∧ t.Ended ∧
      t.world = (w.runInOrder env step phases).2 ∧
      t.errors step = (w.runInOrder env step phases).1 := by
  suffices h : ∀ (before : List PhaseState) (w : World) (commits : List (Nat × GroupKey)),
      ∃ more : List (Nat × GroupKey),
        Reaches env env.performs ⟨w, before ++ phases.map .waiting, commits⟩
          ⟨(w.runPhasesInOrder env phases).2,
            before ++ (w.runPhasesInOrder env phases).1.map .ended, more⟩ by
    obtain ⟨more, hr⟩ := h [] w []
    refine ⟨_, hr, ?_, rfl, ?_⟩
    · rintro q hq
      obtain ⟨_, _, rfl⟩ := List.mem_map.mp hq
      rfl
    · have houtcomes (ends : List UnitEnd) :
          (ends.map PhaseState.ended).map PhaseState.outcome = ends := by
        rw [List.map_map]
        exact List.map_id _
      rw [errors, List.nil_append, houtcomes]
      rfl
  induction phases with
  | nil => exact fun before w commits => ⟨commits, .refl⟩
  | cons p rest ih =>
    intro before w commits
    obtain ⟨more, hp⟩ :=
      reaches_of_goes (PhaseState.runPhase_goes env w p) before (rest.map .waiting) commits
    obtain ⟨more', hr⟩ :=
      ih (before ++ [.ended (w.runPhase env p).1]) (w.runPhase env p).2 (commits ++ more)
    rw [List.append_assoc, List.append_assoc] at hr
    exact ⟨more', hp.trans hr⟩

end Interleaving

end ReplicaLoad

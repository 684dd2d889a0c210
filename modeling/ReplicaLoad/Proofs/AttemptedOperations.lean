-- Attempted operations. The account of a phase whose operations can fail: which
-- of them are attempted, which of those come to a call, and which errors are
-- left. A phase returns one error for every attempt that has failed and no
-- other, and an attempt makes one call unless its request cannot be made. So
-- the errors can be counted in the journal and in the requests that could not
-- be made.
import ReplicaLoad.Proofs.DisjointPhases
import ReplicaLoad.Proofs.PhaseCounts

namespace ReplicaLoad

/-! ## Attempts -/

/-- An operation that was attempted, with the entry of its call in the journal, if it came to a call,
and its error, if it failed. -/
structure Attempt where
  op : ObjectOperation
  call : Option JournalEntry
  error : Option RunError

/-- The attempts of the operations of an action. A delete attempts all of them, an apply those up to
the first one that fails. -/
inductive Attempts (kind : ActionKind) : List ObjectOperation → List Attempt → Prop
  | nil : Attempts kind [] []
  | goesOn {x : Attempt} {ops xs} (h : x.error = none ∨ kind = .delete)
      (rest : Attempts kind ops xs) : Attempts kind (x.op :: ops) (x :: xs)
  | stops {x : Attempt} {ops} (failed : x.error ≠ none) (h : kind = .apply) :
      Attempts kind (x.op :: ops) [x]

variable {kind : ActionKind} {xs : List Attempt}

/-- Attempts that go on for ever are those of all operations. -/
theorem Attempts.of_goesOn (h : ∀ x ∈ xs, x.error = none ∨ kind = .delete) :
    Attempts kind (xs.map (·.op)) xs := by
  induction xs with
  | nil => exact .nil
  | cons x rest ih =>
    exact .goesOn (h x List.mem_cons_self) (ih fun y hy => h y (List.mem_cons_of_mem _ hy))

theorem Attempts.of_stops {x : Attempt} (ops : List ObjectOperation)
    (h : ∀ y ∈ xs, y.error = none ∨ kind = .delete) (hx : x.error ≠ none) (hk : kind = .apply) :
    Attempts kind (xs.map (·.op) ++ x.op :: ops) (xs ++ [x]) := by
  induction xs with
  | nil => exact .stops hx hk
  | cons y rest ih =>
    exact .goesOn (h y List.mem_cons_self) (ih fun z hz => h z (List.mem_cons_of_mem _ hz))

namespace Environment

/-- What an attempt of an operation comes to. It makes a call exactly when there is a request, and
fails with the reason why there is none or with the refusal of the call. -/
def Attempted (env : Environment) (failing : List String) (a : Action) (x : Attempt) : Prop :=
  match env.request x.op.object a.index x.op.operation with
  | .error e => x.call = none ∧ x.error = some e
  | .ok r =>
    let name := x.op.object.objectName a.index
    ∃ refused : Option ClusterError,
      x.call = some ⟨x.op.operation, a.ns, r.groupVersionKind.kind, name, refused.isNone⟩ ∧
      x.error = refused.map (r.runError a.ns name) ∧
      (name ∈ failing → refused = some (Cluster.injected name))

end Environment

variable {env : Environment}

/-- A call has failed exactly when its attempt has. -/
theorem Environment.Attempted.succeeded {failing : List String} {a : Action} {x : Attempt}
    (h : env.Attempted failing a x) {e : JournalEntry} (he : x.call = some e) :
    e.succeeded = x.error.isNone := by
  unfold Environment.Attempted at h
  split at h
  · rw [h.1] at he
    cases he
  · obtain ⟨refused, hcall, herror, -⟩ := h
    rw [hcall] at he
    cases he
    rw [herror]
    cases refused <;> rfl

/-- Without a call an attempt has failed. -/
theorem Environment.Attempted.failed {failing : List String} {a : Action} {x : Attempt}
    (h : env.Attempted failing a x) (hc : x.call = none) : x.error ≠ none := by
  unfold Environment.Attempted at h
  split at h
  · simp [h.2]
  · obtain ⟨refused, hcall, -⟩ := h
    rw [hcall] at hc
    cases hc

theorem goesOn_false_iff (a : Action) : PhaseRun.goesOn a false = true ↔ a.kind = .delete := by
  simp [PhaseRun.goesOn]

/-- An operation that is performed without a crash is an attempt. -/
theorem World.perform_attempted (w : World) (hc : env.client.returned = id)
    (hcrash : ∀ name, env.client.crash? name = none) (a : Action) (op : ObjectOperation) :
    ∃ x : Attempt, x.op = op ∧ env.Attempted w.cluster.failingNames a x ∧
      (w.perform env a op).error = x.error ∧
      ((w.perform env a op).goesOn = true ↔ x.error = none ∨ a.kind = .delete) ∧
      (w.perform env a op).world.cluster.journal = w.cluster.journal ++ x.call.toList ∧
      (w.perform env a op).world.cluster.failingNames = w.cluster.failingNames := by
  unfold World.perform
  cases hr : env.request op.object a.index op.operation with
  | error e =>
    refine ⟨⟨op, none, some e⟩, rfl, ?_, rfl, ?_, by simp, rfl⟩
    · simp [Environment.Attempted, hr]
    · simp [goesOn_false_iff]
  | ok r =>
    obtain ⟨hans, herr⟩ := w.send_answers hc a.ns (op.object.objectName a.index) r
    have hjournal := hans.journal
    rw [Environment.request_operation hr] at hjournal
    have hattempted : ∀ e, e = (w.cluster.refusal r a.ns (op.object.objectName a.index)).map
        (r.runError a.ns (op.object.objectName a.index)) →
        env.Attempted w.cluster.failingNames a ⟨op, some ⟨op.operation, a.ns,
          r.groupVersionKind.kind, op.object.objectName a.index,
          (w.cluster.refusal r a.ns (op.object.objectName a.index)).isNone⟩, e⟩ := by
      intro e he
      simp only [Environment.Attempted, hr]
      exact ⟨_, rfl, he, fun hf => Cluster.refusal_of_failing hf r a.ns⟩
    simp only [hcrash]
    rcases hs : w.send env.client a.ns (op.object.objectName a.index) r with ⟨_ | e, w'⟩
    · rw [hs] at hans herr hjournal
      exact ⟨_, rfl, hattempted none herr, rfl, by simp, hjournal, hans.failingNames⟩
    · rw [hs] at hans herr hjournal
      exact ⟨_, rfl, hattempted (some e) herr, rfl, by simp [goesOn_false_iff], hjournal,
        hans.failingNames⟩

/-! ## The account of a run -/

/-- The attempts of the action at a place of a plan, in their order. -/
def attemptsAt (log : List (Nat × Attempt)) (i : Nat) : List Attempt :=
  (log.filter (·.1 = i)).map (·.2)

theorem attemptsAt_append_self (log : List (Nat × Attempt)) (i : Nat) (x : Attempt) :
    attemptsAt (log ++ [(i, x)]) i = attemptsAt log i ++ [x] := by
  simp [attemptsAt]

theorem attemptsAt_append_ne (log : List (Nat × Attempt)) {i j : Nat} (x : Attempt) (h : i ≠ j) :
    attemptsAt (log ++ [(i, x)]) j = attemptsAt log j := by
  simp [attemptsAt, h]

/-- What a phase has attempted of its plan at a moment, and what it has made of it. The actions that
are left stand beside their places in the plan. -/
structure Account (env : Environment) (c₀ : Cluster) (plan : List Action) (c : Cluster)
    (errors : List RunError) (left : List (Nat × Action)) (log : List (Nat × Attempt)) : Prop where
  failingNames : c.failingNames = c₀.failingNames
  journal : c.journal = c₀.journal ++ log.filterMap (·.2.call)
  errors : errors = log.filterMap (·.2.error)
  attempted : ∀ x ∈ log, ∃ a, plan[x.1]? = some a ∧ env.Attempted c₀.failingNames a x.2
  places : (left.map (·.1)).Nodup
  /-- An action that is left has attempted the operations before those that it has left. -/
  running : ∀ x ∈ left, ∃ a, plan[x.1]? = some a ∧ x.2 = { a with operations := x.2.operations } ∧
    (attemptsAt log x.1).map (·.op) ++ x.2.operations = a.operations ∧
    ∀ y ∈ attemptsAt log x.1, y.error = none ∨ a.kind = .delete
  ended : ∀ i a, plan[i]? = some a → i ∉ left.map (·.1) →
    Attempts a.kind a.operations (attemptsAt log i)

namespace Account

variable {c₀ c : Cluster} {plan : List Action} {errors : List RunError}
  {before after : List (Nat × Action)} {log : List (Nat × Attempt)}

/-- Nothing has been attempted yet. -/
theorem start (env : Environment) (c₀ : Cluster) (plan : List Action) :
    Account env c₀ plan c₀ [] (plan.zipIdx.map Prod.swap) [] where
  failingNames := rfl
  journal := by simp
  errors := rfl
  attempted := by simp
  places := by
    have hfst : (plan.zipIdx.map Prod.swap).map (·.1) = List.range plan.length := by
      simp [Function.comp_def, List.range_eq_range']
    rw [hfst]
    exact List.nodup_range
  running := by
    intro x hx
    obtain ⟨⟨a, i⟩, hm, rfl⟩ := List.mem_map.mp hx
    exact ⟨a, List.mk_mem_zipIdx_iff_getElem?.mp hm, rfl, rfl, by simp [attemptsAt]⟩
  ended := by
    intro i a ha hi
    refine absurd (List.mem_map.mpr ⟨(i, a), ?_, rfl⟩) hi
    exact List.mem_map.mpr ⟨(a, i), List.mk_mem_zipIdx_iff_getElem?.mpr ha, rfl⟩

/-- An action that has no operations left has ended. -/
theorem finish {i : Nat} {b : Action}
    (h : Account env c₀ plan c errors (before ++ (i, b) :: after) log) (hb : b.operations = []) :
    Account env c₀ plan c errors (before ++ after) log where
  failingNames := h.failingNames
  journal := h.journal
  errors := h.errors
  attempted := h.attempted
  places := by
    refine List.Nodup.sublist ?_ h.places
    exact (((List.sublist_cons_self _ _).append_left before)).map _
  running := by
    intro x hx
    refine h.running x ?_
    rcases List.mem_append.mp hx with hx | hx
    · exact List.mem_append_left _ hx
    · exact List.mem_append_right _ (List.mem_cons_of_mem _ hx)
  ended := by
    intro j a ha hj
    by_cases hji : j = i
    · subst hji
      obtain ⟨a', ha', -, hops, hgoes⟩ := h.running (j, b) (by simp)
      obtain rfl : a' = a := Option.some.inj (ha'.symm.trans ha)
      rw [hb, List.append_nil] at hops
      rw [← hops]
      exact .of_goesOn hgoes
    · refine h.ended j a ha ?_
      simpa [hji] using hj

/-- No other action that is left has the place of this one. -/
theorem place_ne {i : Nat} {b : Action}
    (h : Account env c₀ plan c errors (before ++ (i, b) :: after) log) {y : Nat × Action}
    (hy : y ∈ before ++ after) : i ≠ y.1 := by
  have hn := h.places
  rw [List.map_append, List.map_cons, List.nodup_middle, List.nodup_cons, ← List.map_append] at hn
  exact fun hi => hn.1 (List.mem_map.mpr ⟨y, hy, hi.symm⟩)

/-- An operation of an action that is left is attempted. -/
theorem perform {w : World} {i : Nat} {b : Action} {op : ObjectOperation}
    {rest : List ObjectOperation} (hc : env.client.returned = id)
    (hcrash : ∀ name, env.client.crash? name = none)
    (h : Account env c₀ plan w.cluster errors (before ++ (i, b) :: after) log)
    (hb : b.operations = op :: rest) :
    ∃ x, Account env c₀ plan (w.perform env b op).world.cluster
      (errors ++ (w.perform env b op).error.toList)
      (before ++ (((w.perform env b op).remains b rest).map (i, ·) ++ after)) (log ++ [(i, x)]) := by
  obtain ⟨x, hop, hatt, herr, hgoes, hjournal, hfailing⟩ := w.perform_attempted hc hcrash b op
  obtain ⟨a, ha, hba, hops, hsofar⟩ := h.running (i, b) (by simp)
  dsimp only at ha hba hops hsofar
  have hkind : b.kind = a.kind := by rw [hba]
  have hatt' : env.Attempted c₀.failingNames a x := by
    rw [h.failingNames, hba] at hatt
    exact hatt
  rw [hb, ← hop] at hops
  -- what is left are the other actions, and the rest of this one if it goes on
  have hleft : ∀ y, y ∈ before ++ (((w.perform env b op).remains b rest).map (i, ·) ++ after) ↔
      y ∈ before ++ after ∨
        (x.error = none ∨ b.kind = .delete) ∧ y = (i, { b with operations := rest }) := by
    intro y
    rw [← hgoes]
    unfold Performed.remains
    split
    · rename_i hg
      simp only [hg, List.map_cons, List.map_nil, List.mem_append, List.mem_singleton]
      tauto
    · rename_i hg
      simp [hg]
  refine ⟨x, hfailing.trans h.failingNames, ?_, ?_, ?_, ?_, ?_, ?_⟩
  · rw [hjournal, h.journal, List.filterMap_append, List.append_assoc]
    cases hx : x.call <;> simp [hx]
  · rw [herr, h.errors, List.filterMap_append]
    cases hx : x.error <;> simp [hx]
  · intro y hy
    rcases List.mem_append.mp hy with hy | hy
    · exact h.attempted y hy
    · rw [List.mem_singleton.mp hy]
      exact ⟨a, ha, hatt'⟩
  · refine h.places.sublist ?_
    rw [List.map_append, List.map_append, List.map_append, List.map_cons]
    refine List.Sublist.append_left ?_ _
    unfold Performed.remains
    split
    · exact .refl _
    · exact List.sublist_cons_self _ _
  · intro y hy
    rcases (hleft y).mp hy with hy | ⟨hx, rfl⟩
    · rw [attemptsAt_append_ne _ _ (h.place_ne hy)]
      refine h.running y ?_
      simp only [List.mem_append, List.mem_cons] at hy ⊢
      tauto
    · refine ⟨a, ha, by rw [hba], ?_, ?_⟩
      · rw [attemptsAt_append_self, List.map_append, List.map_singleton, List.append_assoc]
        exact hops
      · rw [attemptsAt_append_self]
        intro z hz
        rcases List.mem_append.mp hz with hz | hz
        · exact hsofar z hz
        · rw [List.mem_singleton.mp hz, ← hkind]
          exact hx
  · intro j a' ha' hj
    by_cases hji : j = i
    · subst hji
      obtain rfl : a' = a := Option.some.inj (ha'.symm.trans ha)
      -- the action is not left any more, so that this was a failure that has stopped it
      have hstops : ¬ (x.error = none ∨ b.kind = .delete) := fun hgo =>
        hj (List.mem_map_of_mem ((hleft (j, { b with operations := rest })).mpr (.inr ⟨hgo, rfl⟩)))
      rw [not_or, hkind] at hstops
      have happly : a'.kind = .apply := by
        cases hk : a'.kind
        · exact absurd hk hstops.2
        · rfl
      rw [attemptsAt_append_self, ← hops]
      exact .of_stops rest hsofar hstops.1 happly
    · rw [attemptsAt_append_ne _ _ (Ne.symm hji)]
      refine h.ended j a' ha' fun hm => hj ?_
      simp only [List.map_append, List.map_cons, List.mem_append, List.mem_cons] at hm ⊢
      tauto

end Account

/-! ## The account of a phase -/

/-- There is an account of what a phase on a course has attempted so far. -/
def PhaseState.Accounted (env : Environment) (c₀ : Cluster) (c : Course) (w : World)
    (q : PhaseState) : Prop :=
  ∃ left log, Account env c₀ c.started w.cluster (q.allErrors env) left log ∧
    left.map (·.2) = q.pending c

/-- What a step does is entered in the account. -/
theorem PhaseState.Books.accounted {c₀ : Cluster} {c : Course} {w w' : World} {q q' : PhaseState}
    (hc : env.client.returned = id) (hcrash : ∀ name, env.client.crash? name = none)
    (hb : Books env c w q w' q') (h : q.Accounted env c₀ c w) : q'.Accounted env c₀ c w' := by
  obtain ⟨left, log, hacc, hleft⟩ := h
  cases hb with
  | same cluster actions errors =>
    refine ⟨left, log, ?_, hleft.trans actions.symm⟩
    rw [cluster, errors]
    exact hacc
  | @operate before a op rest after next old world actions errors =>
    obtain ⟨l, tail, rfl, rfl, htail⟩ := List.map_eq_append_iff.mp (hleft.trans old)
    obtain ⟨⟨i, b⟩, r, rfl, hba, rfl⟩ := List.map_eq_cons_iff.mp htail
    obtain rfl : b = a := hba
    obtain ⟨x, hx⟩ := hacc.perform hc hcrash next
    refine ⟨l ++ (((w.perform env b op).remains b rest).map (i, ·) ++ r), log ++ [(i, x)], ?_, ?_⟩
    · rw [world, errors]
      exact hx
    · rw [actions]
      simp [Function.comp_def]
  | @finish before a after last old cluster actions errors =>
    obtain ⟨l, tail, rfl, rfl, htail⟩ := List.map_eq_append_iff.mp (hleft.trans old)
    obtain ⟨⟨i, b⟩, r, rfl, hba, rfl⟩ := List.map_eq_cons_iff.mp htail
    obtain rfl : b = a := hba
    refine ⟨l ++ r, log, ?_, ?_⟩
    · rw [cluster, errors]
      exact hacc.finish last
    · rw [actions]
      simp

/-- At every moment of a phase there is an account of it. -/
theorem PhaseState.Goes.accounted {w w' : World} {p : Phase} {q : PhaseState}
    (hc : env.client.returned = id) (hcrash : ∀ name, env.client.crash? name = none)
    (hr : env.refusals p = []) (h : PhaseState.Goes env env.performs (w, .waiting p) (w', q)) :
    q.Accounted env w.cluster (env.course p w.instances) w' := by
  have hgoes : ∀ x y : World × PhaseState, PhaseState.Goes env env.performs x y →
      x.2.OnCourse env (fun _ => True) (env.course p w.instances) x.1.instances →
      x.2.Accounted env w.cluster (env.course p w.instances) x.1 →
      y.2.OnCourse env (fun _ => True) (env.course p w.instances) y.1.instances ∧
        y.2.Accounted env w.cluster (env.course p w.instances) y.1 := by
    intro x y hxy hx ha
    induction hxy with
    | refl => exact ⟨hx, ha⟩
    | tail _ hs ih =>
      exact ⟨hs.any.onCourse ih.1, (hs.books ih.1).accounted hc hcrash ih.2⟩
  have hstart : (PhaseState.waiting p).Accounted env w.cluster (env.course p w.instances) w := by
    refine ⟨(env.course p w.instances).started.zipIdx.map Prod.swap, [], ?_, ?_⟩
    · rw [show (PhaseState.waiting p).allErrors env = [] from hr]
      exact Account.start env w.cluster _
    · simp [PhaseState.pending, Function.comp_def]
  exact (hgoes _ _ h ⟨rfl, rfl, fun _ _ => rfl, rfl⟩ hstart).2

/-- What a plan with its attempts, each of them with the place of its action, has made of a world,
and the errors that they leave. -/
structure Accounts (env : Environment) (w : World) (plan : List Action)
    (log : List (Nat × Attempt)) (w' : World) (errors : List RunError) : Prop where
  attempts : ∀ i a, plan[i]? = some a → Attempts a.kind a.operations (attemptsAt log i)
  attempted : ∀ x ∈ log, ∃ a, plan[x.1]? = some a ∧ env.Attempted w.cluster.failingNames a x.2
  journal : w'.cluster.journal = w.cluster.journal ++ log.filterMap (·.2.call)
  count : errors.length =
    (log.filterMap (·.2.call)).countP (!·.succeeded) + log.countP (·.2.call.isNone)
  errors : errors.Perm (log.filterMap (·.2.error))

/-- There are as many errors as failed calls and attempts without a call. -/
theorem length_errors {failing : List String} {log : List (Nat × Attempt)}
    (h : ∀ x ∈ log, ∃ a, env.Attempted failing a x.2) :
    (log.filterMap (·.2.error)).length =
      (log.filterMap (·.2.call)).countP (!·.succeeded) + log.countP (·.2.call.isNone) := by
  induction log with
  | nil => rfl
  | cons x rest ih =>
    have hrest := ih fun y hy => h y (List.mem_cons_of_mem _ hy)
    obtain ⟨a, ha⟩ := h x List.mem_cons_self
    cases hcall : x.2.call with
    | none =>
      obtain ⟨e, he⟩ := Option.ne_none_iff_exists'.mp (ha.failed hcall)
      simp only [List.filterMap_cons, he, hcall, List.length_cons, List.countP_cons, hrest]
      simp [Nat.add_assoc]
    | some e =>
      have hs := ha.succeeded hcall
      cases herror : x.2.error <;> rw [herror] at hs
      · simp only [List.filterMap_cons, herror, hcall, List.countP_cons, hrest]
        simp [hs]
      · simp only [List.filterMap_cons, herror, hcall, List.length_cons, List.countP_cons, hrest]
        simp [hs]
        omega

/-- A phase that has returned has an account of its whole plan. -/
theorem PhaseState.Goes.accounts {w w' : World} {p : Phase} {errors errors' : List RunError}
    (hc : env.client.returned = id) (hcrash : ∀ name, env.client.crash? name = none)
    (hr : env.refusals p = [])
    (h : PhaseState.Goes env env.performs (w, .waiting p) (w', .ended (.returned errors)))
    (he : errors'.Perm errors) : ∃ log, Accounts env w (w.plannedActions env p) log w' errors' := by
  obtain ⟨left, log, hacc, hleft⟩ := h.accounted hc hcrash hr
  rw [Course.started_of_crash_eq_none (h.any.starts_iff.mpr ⟨errors, rfl⟩)] at hacc
  obtain rfl : left = [] := List.map_eq_nil_iff.mp hleft
  have hperm : errors'.Perm (log.filterMap (·.2.error)) := he.trans (.of_eq hacc.errors)
  rw [World.plannedActions_eq]
  refine ⟨log, fun i a ha => hacc.ended i a ha (by simp), hacc.attempted, hacc.journal, ?_, hperm⟩
  rw [hperm.length_eq]
  exact length_errors fun x hx => (hacc.attempted x hx).imp fun _ ha => ha.2

/-- A phase that has returned has attempted all operations of its deletes, and those of an apply up
to the first one that failed. It returns the errors of its attempts. -/
theorem phase_accounts {p : Phase} {r : Option ReadyPhase} (hc : env.client.returned = id)
    (hcrash : ∀ name, env.client.crash? name = none) (hr : env.ready p = .ok r) (w : World)
    (step : String) (now : Millis) :
    (∀ w' errors, PhaseState.Goes env env.performs (w, .waiting p) (w', .ended (.returned errors)) →
      ∃ log, Accounts env w (w.plannedActions env p) log w' errors) ∧
    (env.Starts w.instances p →
      ∃ log, Accounts env w (w.plannedActions env p) log (w.runPhases env step now [p]).2.1
        (w.runPhases env step now [p]).1.errors) := by
  have hrefusals : env.refusals p = [] := by
    unfold Environment.refusals
    rw [hr]
  refine ⟨fun w' errors h => h.accounts hc hcrash hrefusals (.refl _), fun hstarts => ?_⟩
  -- the timeline gives the errors in an order of its own
  obtain ⟨e, hgoes, herrors⟩ := runPhases_goes env step w now p
  obtain ⟨errors, rfl⟩ := hgoes.any.starts_iff.mp hstarts
  exact hgoes.accounts hc hcrash hrefusals herrors

/-- A phase of the sample on a cluster that refuses one of its replicas: the other one is created,
and there is an error for this one. -/
theorem phase_accounts_samplePhase :
    ∃ r, sampleEnvironment.ready (samplePhase "a" 2) = .ok r ∧
      ∃ w : World, w.cluster.failingNames = ["a-1"] ∧
        sampleEnvironment.Starts w.instances (samplePhase "a" 2) ∧
        (∃ log, Accounts sampleEnvironment w
          (w.plannedActions sampleEnvironment (samplePhase "a" 2)) log
          (w.runPhases sampleEnvironment "step" 0 [samplePhase "a" 2]).2.1
          (w.runPhases sampleEnvironment "step" 0 [samplePhase "a" 2]).1.errors) ∧
        (w.runPhases sampleEnvironment "step" 0 [samplePhase "a" 2]).1.errors =
          [.create "" "a-1" (Cluster.injected "a-1")] ∧
        (w.runPhases sampleEnvironment "step" 0 [samplePhase "a" 2]).2.1.cluster.journal =
          [⟨.create, "", "A", "a-0", true⟩, ⟨.create, "", "A", "a-1", false⟩] := by
  have hready := ready_samplePhase "a" 2
  let w : World := { cluster := { failingNames := ["a-1"] } }
  have hstarts := starts_samplePhase w.instances "a" 2
  refine ⟨_, hready, w, rfl, hstarts, ?_, ?_, ?_⟩
  · exact (phase_accounts rfl (fun _ => rfl) hready w "step" 0).2 hstarts
  · decide +kernel
  · decide +kernel

end ReplicaLoad

-- Steps of sleeps. A step whose calls all sleep. The calls with one identifier
-- reach one instance, and wait for it in a line. Its steps are told by what
-- they do to the lines: the next call of a line is made while its instance is
-- free, calls end, and in between the clock goes on to the next of these.
import ReplicaLoad.Proofs.CallSteps
import ReplicaLoad.Proofs.MeasurementHistory
import ReplicaLoad.Proofs.TrialCourse

namespace ReplicaLoad

/-! ## Sleeps -/

namespace MeasurementCall

/-- The length of a sleep. -/
def millis (m : MeasurementCall) : Millis :=
  match countParam m.params "durationMs" with
  | .ok ms => ms
  | .error _ => 0

/-- A call that sleeps for a valid number of milliseconds. -/
structure IsSleep (m : MeasurementCall) : Prop where
  method : m.method = "Sleep"
  valid : countParam m.params "durationMs" = .ok m.millis

end MeasurementCall

/-! ## Calls under way -/

/-- A call that was not made yet. -/
def CallJob.unmade : CallJob → List (MeasurementCall × Nat)
  | .call i m => [(m, i)]
  | .finish _ _ _ => []

/-- A call that was made and has not ended. -/
def CallJob.made : CallJob → List (MeasurementCall × Nat)
  | .call _ _ => []
  | .finish i m _ => [(m, i)]

def CallJob.IsPlain : CallJob → Prop
  | .call _ m => m.IsSleep
  | .finish _ _ outcome => outcome = .summaries []

namespace Token

/-- The call of a job that was started and not made yet. -/
def asked : Token CallJob → List (MeasurementCall × Nat)
  | .starter _ _ => []
  | .job _ state => state.unmade

/-- The calls that a starter has still to start. -/
def unasked : Token CallJob → List (MeasurementCall × Nat)
  | .starter _ waiting => waiting.flatMap (·.job.unmade)
  | .job _ _ => []

/-- A call that was made, with the time of its end if that is the time of the next turn. -/
def due (time : Millis) : Token CallJob → List (Millis × MeasurementCall × Nat)
  | .starter _ _ => []
  | .job _ state => state.made.map (time, ·)

def IsPlain : Token CallJob → Prop
  | .starter _ waiting =>
    ∀ q ∈ waiting, q.pause = 0 ∧ q.offset = 0 ∧ q.job.IsPlain ∧ q.job.made = []
  | .job _ state => state.IsPlain

end Token

namespace Solo

variable (s : CallState)

/-- The time until which the instance with an identifier is taken. -/
def free (identifier : String) : Millis :=
  (s.world.takenUntil.get? ("Sleep", identifier)).getD 0

/-- The calls that were not made yet. Those with one identifier are made in this order. -/
def queue : List (MeasurementCall × Nat) :=
  (s.asleep.map (·.2) ++ s.ready).flatMap Token.asked ++ s.ready.flatMap Token.unasked

def waiting (identifier : String) : List (MeasurementCall × Nat) :=
  s.queue.filter (·.1.identifier = identifier)

/-- The calls that were made and have not ended, with the times of their ends. -/
def sleeping : List (Millis × MeasurementCall × Nat) :=
  s.ready.flatMap (Token.due s.now) ++ s.asleep.flatMap fun x => x.2.due x.1

/-- What is left to do are sleeps. A call that waits for its instance does so until it is free. -/
structure Plain : Prop where
  method : s.world.measurements.methods.get? "Sleep" = some sleepMethod
  errors : s.world.errors = {}
  permits : s.lane.permits = none
  parked : ∀ waiting, s.lane.parked = some waiting → waiting = []
  ready : ∀ token ∈ s.ready, token.IsPlain
  asleep : ∀ x ∈ s.asleep, s.now < x.1 ∧ ∃ job, x.2 = .job 0 job ∧ job.IsPlain ∧
    ∀ c ∈ job.unmade, x.1 = s.free c.1.identifier

end Solo

namespace CallRun

variable {r : CallRun} {m : MeasurementCall}

theorem call_sleep (hm : m.IsSleep) (h : r.measurements.methods.get? "Sleep" = some sleepMethod)
    (now : Millis) :
    (r.measurements.call now m.method m.identifier m.params).2 =
      (Nanos.ofMillis m.millis, .summaries []) := by
  simp only [Measurements.call, hm.method, h, sleepMethod, hm.valid]

theorem lasts_sleep (hm : m.IsSleep) (h : r.measurements.methods.get? "Sleep" = some sleepMethod)
    (now : Millis) : r.lasts now m = Nanos.ofMillis m.millis :=
  congrArg Prod.fst (call_sleep hm h now)

theorem outcome_sleep (hm : m.IsSleep) (h : r.measurements.methods.get? "Sleep" = some sleepMethod)
    (now : Millis) : r.outcome now m = .summaries [] :=
  congrArg Prod.snd (call_sleep hm h now)

end CallRun

namespace Solo

variable {name : String} {s s' : CallState}

theorem freeAt_sleep {m : MeasurementCall} (hm : m.IsSleep) :
    s.world.freeAt m = s.free m.identifier := by
  rw [CallRun.freeAt, hm.method, free]

theorem Plain.ready_finish (h : s.Plain) {token : Token CallJob} {rest : List (Token CallJob)}
    (hr : s.ready = token :: rest) : ∀ other ∈ rest ++ s.lane.parkedToken 0, other.IsPlain := by
  intro other hmem
  rcases List.mem_append.mp hmem with hmem | hmem
  · exact h.ready other (hr ▸ List.mem_cons_of_mem _ hmem)
  · obtain ⟨waiting, hparked, rfl⟩ := Lane.mem_parkedToken.mp hmem
    rw [h.parked waiting hparked]
    exact nofun

theorem Plain.job (h : s.Plain) {job : CallJob} {rest : List (Token CallJob)}
    (hr : s.ready = .job 0 job :: rest) : job.IsPlain :=
  h.ready (.job 0 job) (hr ▸ List.mem_cons_self)

theorem Plain.rest (h : s.Plain) {token : Token CallJob} {rest : List (Token CallJob)}
    (hr : s.ready = token :: rest) : ∀ other ∈ rest, other.IsPlain :=
  fun other hmem => h.ready other (hr ▸ List.mem_cons_of_mem _ hmem)

theorem parked_finish {l : Lane CallJob} (waiting : List (Pending CallJob))
    (h : l.finish.parked = some waiting) : waiting = [] := by
  cases h

/-- While an instance is free no call sleeps that waits for it. -/
theorem Plain.none_asleep (h : s.Plain) {identifier : String} (hf : s.free identifier ≤ s.now) :
    ∀ x ∈ s.asleep, ∀ c ∈ x.2.asked, c.1.identifier ≠ identifier := by
  rintro x hx c hc rfl
  obtain ⟨hlater, job, hjob, -, hfree⟩ := h.asleep x hx
  rw [hjob] at hc
  exact absurd (hfree c hc ▸ hlater) hf.not_gt

theorem Plain.step (h : s.Plain) (hs : CallStep name s s') : s'.Plain := by
  cases hs with
  | leave ready idle =>
    exact ⟨h.method, h.errors, h.permits, h.parked, h.rest ready, h.asleep⟩
  | park ready =>
    refine ⟨h.method, h.errors, h.permits, ?_, h.rest ready, h.asleep⟩
    rintro waiting ⟨⟩
    rfl
  | @launch q more rest ready =>
    have hstarter : (Token.starter 0 (q :: more)).IsPlain := h.ready _ (ready ▸ List.mem_cons_self)
    refine ⟨h.method, h.errors, ?_, h.parked, fun token hmem => ?_, h.asleep⟩
    · simp [Lane.start, h.permits]
    · rcases List.mem_cons.mp hmem with rfl | hmem
      · exact fun q' hq' => hstarter q' (List.mem_cons_of_mem _ hq')
      · rcases List.mem_append.mp hmem with hmem | hmem
        · exact h.rest ready token hmem
        · rw [List.mem_singleton.mp hmem]
          exact (hstarter q List.mem_cons_self).2.2.1
  | @retry i m rest ready taken =>
    have hm : m.IsSleep := h.job ready
    refine ⟨h.method, h.errors, h.permits, h.parked, h.rest ready, fun x hx => ?_⟩
    rcases List.mem_append.mp hx with hx | hx
    · exact h.asleep x hx
    · rw [List.mem_singleton.mp hx]
      refine ⟨taken, _, rfl, hm, fun c hc => ?_⟩
      rw [List.mem_singleton.mp hc]
      exact freeAt_sleep hm
  | @brief i m rest ready free instant =>
    have hm : m.IsSleep := h.job ready
    rw [CallRun.outcome_sleep hm h.method]
    refine ⟨?_, h.errors, ?_, parked_finish, h.ready_finish ready, h.asleep⟩
    · simpa [CallRun.finish, CallRun.called] using h.method
    · simp [Lane.finish, h.permits]
  | @take i m rest ready free lasts =>
    have hm : m.IsSleep := h.job ready
    rw [freeAt_sleep hm] at free
    refine ⟨?_, h.errors, h.permits, h.parked, h.rest ready, fun x hx => ?_⟩
    · simpa [CallRun.taken, CallRun.called] using h.method
    · rcases List.mem_append.mp hx with hx | hx
      · obtain ⟨hlater, job, hjob, hplain, hfree⟩ := h.asleep x hx
        refine ⟨hlater, job, hjob, hplain, fun c hc => ?_⟩
        have hne : c.1.identifier ≠ m.identifier := h.none_asleep free x hx c (by rwa [hjob])
        rw [hfree c hc]
        simp [Solo.free, CallRun.taken, Table.get?_put, hne.symm]
      · rw [List.mem_singleton.mp hx]
        exact ⟨lt_after _ lasts, _, rfl, CallRun.outcome_sleep hm h.method _,
          fun c hc => absurd hc List.not_mem_nil⟩
  | @finish i m outcome rest ready =>
    have ho : outcome = .summaries [] := h.job ready
    subst ho
    refine ⟨?_, h.errors, ?_, parked_finish, h.ready_finish ready, h.asleep⟩
    · simpa [CallRun.finish] using h.method
    · simp [Lane.finish, h.permits]
  | @wake time ready least =>
    have hleast := List.min?_eq_some_iff.mp least
    refine ⟨h.method, h.errors, h.permits, h.parked, fun token hmem => ?_, fun x hx => ?_⟩
    · obtain ⟨x, hx, rfl⟩ := List.mem_map.mp hmem
      obtain ⟨-, job, hjob, hplain, -⟩ := h.asleep x (List.mem_of_mem_filter hx)
      rw [hjob]
      exact hplain
    · obtain ⟨hmem, hne⟩ := List.mem_filter.mp hx
      obtain ⟨-, hjob⟩ := h.asleep x hmem
      have hle := hleast.2 x.1 (List.mem_map_of_mem hmem)
      exact ⟨Nat.lt_of_le_of_ne hle fun heq => by simp [← heq] at hne, hjob⟩

/-! ## What a step does to the lines of calls -/

/-- A call is made: the next one of those with its identifier, while the instance is free. -/
structure Begins (s s' : CallState) (m : MeasurementCall) (i : Nat) : Prop where
  now : s'.now = s.now
  free : s.free m.identifier ≤ s.now
  waiting : ∀ identifier, s.waiting identifier =
    (if m.identifier = identifier then [(m, i)] else []) ++ s'.waiting identifier
  taken : max s.now (s'.free m.identifier) = s.now + m.millis
  others : ∀ identifier, m.identifier ≠ identifier → s'.free identifier = s.free identifier

/-- The effects of a step, told by the calls that wait for their instances and those that sleep. -/
inductive SleepMove (s s' : CallState) : Prop
  | still (now : s'.now = s.now) (waiting : s'.waiting = s.waiting) (free : s'.free = s.free)
      (sleeping : s'.sleeping.Perm s.sleeping)
  /-- A call is made and ends in one turn. -/
  | brief {m i} (begins : Begins s s' m i) (instant : m.millis = 0)
      (sleeping : s'.sleeping.Perm s.sleeping)
  | take {m i} (begins : Begins s s' m i)
      (sleeping : s'.sleeping.Perm ((s.now + m.millis, m, i) :: s.sleeping))
  | finish {m i} (now : s'.now = s.now) (waiting : s'.waiting = s.waiting) (free : s'.free = s.free)
      (sleeping : s.sleeping.Perm ((s.now, m, i) :: s'.sleeping))
  /-- The clock goes on to the first moment at which an instance is free for a call that waits for
  it, or a call ends. -/
  | wake (waiting : s'.waiting = s.waiting) (free : s'.free = s.free)
      (sleeping : s'.sleeping.Perm s.sleeping) (later : s.now ≤ s'.now)
      (held : ∀ identifier, s.waiting identifier ≠ [] → s'.now ≤ s.free identifier)
      (due : ∀ d ∈ s.sleeping, s'.now ≤ d.1)
      (cause : (∃ identifier, s.waiting identifier ≠ [] ∧ s'.now = s.free identifier) ∨
        ∃ d ∈ s.sleeping, s'.now = d.1)

theorem Plain.parkedToken (h : s.Plain) :
    s.lane.parkedToken 0 = [] ∨ s.lane.parkedToken 0 = [.starter 0 []] := by
  unfold Lane.parkedToken
  cases hparked : s.lane.parked with
  | none => exact Or.inl rfl
  | some waiting =>
    rw [h.parked waiting hparked]
    exact Or.inr rfl

theorem Plain.asked_parkedToken (h : s.Plain) :
    (s.lane.parkedToken 0).flatMap Token.asked = [] := by
  rcases h.parkedToken with h | h <;> rw [h] <;> rfl

theorem Plain.unasked_parkedToken (h : s.Plain) :
    (s.lane.parkedToken 0).flatMap Token.unasked = [] := by
  rcases h.parkedToken with h | h <;> rw [h] <;> rfl

theorem Plain.due_parkedToken (h : s.Plain) (time : Millis) :
    (s.lane.parkedToken 0).flatMap (Token.due time) = [] := by
  rcases h.parkedToken with h | h <;> rw [h] <;> rfl

theorem queue_cons {token : Token CallJob} {rest : List (Token CallJob)}
    (hr : s.ready = token :: rest) : s.queue =
      (s.asleep.map (·.2)).flatMap Token.asked ++ (token.asked ++ rest.flatMap Token.asked) ++
        (token.unasked ++ rest.flatMap Token.unasked) := by
  simp [queue, hr]

/-- The call that is next in its line is made, and its instance is free. -/
theorem Plain.waiting_cons (h : s.Plain) {i : Nat} {m : MeasurementCall}
    {rest : List (Token CallJob)} (hr : s.ready = .job 0 (.call i m) :: rest)
    (hf : s.free m.identifier ≤ s.now)
    (hqueue : s'.queue = (s.asleep.map (·.2)).flatMap Token.asked ++ rest.flatMap Token.asked ++
      rest.flatMap Token.unasked) (identifier : String) :
    s.waiting identifier =
      (if m.identifier = identifier then [(m, i)] else []) ++ s'.waiting identifier := by
  unfold waiting
  rw [queue_cons hr, hqueue]
  by_cases hm : m.identifier = identifier
  · have hnone : ((s.asleep.map (·.2)).flatMap Token.asked).filter
        (·.1.identifier = identifier) = [] := by
      simp only [List.filter_eq_nil_iff, decide_eq_true_eq]
      intro c hc
      obtain ⟨token, htoken, hc⟩ := List.mem_flatMap.mp hc
      obtain ⟨x, hx, rfl⟩ := List.mem_map.mp htoken
      exact hm ▸ h.none_asleep hf x hx c hc
    simp [List.filter_append, hnone, hm, Token.asked, Token.unasked, CallJob.unmade]
  · simp [List.filter_append, hm, Token.asked, Token.unasked, CallJob.unmade]

theorem waiting_of_queue (h : s'.queue = s.queue) : s'.waiting = s.waiting := by
  funext identifier
  rw [waiting, h, waiting]

theorem free_of_takenUntil (h : s'.world.takenUntil = s.world.takenUntil) : s'.free = s.free := by
  funext identifier
  rw [free, h, free]

/-- A starter starts its next call, which comes after those that were started. -/
theorem Plain.launch (ho : s.timeline.Orderly) (h : s.Plain) {q : Pending CallJob}
    {more : List (Pending CallJob)} {rest : List (Token CallJob)}
    (hr : s.ready = .starter 0 (q :: more) :: rest) :
    SleepMove s { s with
      ready := .starter 0 more :: (rest ++ [.job 0 q.job])
      lane := s.lane.start } := by
  obtain ⟨hrest, -, -⟩ := alone ho hr
  have hjobs : rest.flatMap Token.unasked = [] := by
    refine List.flatMap_eq_nil_iff.mpr fun token hmem => ?_
    cases token with
    | job => rfl
    | starter i other =>
      have htoken : .starter i other ∈ s.timeline.tokens := by simp [tokens_timeline, hr, hmem]
      obtain rfl : i = 0 := lane_of_mem ho htoken
      exact absurd hmem (hrest other)
  have hstarter : (Token.starter 0 (q :: more)).IsPlain := h.ready _ (hr ▸ List.mem_cons_self)
  have hmade : q.job.made = [] := (hstarter q List.mem_cons_self).2.2.2
  refine .still rfl (waiting_of_queue ?_) rfl ?_
  · simp [queue, hr, hjobs, Token.asked, Token.unasked]
  · simp [sleeping, hr, hmade, Token.due]

theorem begins_brief (h : s.Plain) {i : Nat} {m : MeasurementCall} {rest : List (Token CallJob)}
    (hr : s.ready = .job 0 (.call i m) :: rest) (hf : s.world.freeAt m ≤ s.now)
    (hz : m.millis = 0) (outcome : CallOutcome) :
    Begins s { s with
      ready := rest ++ s.lane.parkedToken 0
      lane := s.lane.finish
      world := (s.world.called s.now m).finish name i m outcome } m i := by
  rw [freeAt_sleep (h.job hr)] at hf
  have hfree : ∀ lane ready, ({ s with
      ready, lane, world := (s.world.called s.now m).finish name i m outcome } : CallState).free =
        s.free := fun lane ready => free_of_takenUntil (by simp [CallRun.called])
  refine ⟨rfl, hf, h.waiting_cons hr hf ?_, ?_, fun identifier _ => congrFun (hfree _ _) identifier⟩
  · simp [queue, h.asked_parkedToken, h.unasked_parkedToken]
  · rw [hfree, hz, Nat.add_zero]
    exact max_eq_left hf

theorem begins_take (h : s.Plain) {i : Nat} {m : MeasurementCall} {rest : List (Token CallJob)}
    (hr : s.ready = .job 0 (.call i m) :: rest) (hf : s.world.freeAt m ≤ s.now) (time : Millis)
    (outcome : CallOutcome) :
    Begins s { s with
      ready := rest
      asleep := s.asleep ++ [(time, .job 0 (.finish i m outcome))]
      world := s.world.taken s.now m } m i := by
  have hm : m.IsSleep := h.job hr
  rw [freeAt_sleep hm] at hf
  have htaken : (s.world.taken s.now m).takenUntil =
      s.world.takenUntil.put ("Sleep", m.identifier) (s.now + m.millis) := by
    rw [CallRun.taken, CallRun.lasts_sleep hm h.method, after_ofMillis, hm.method]
  refine ⟨rfl, hf, h.waiting_cons hr hf ?_, ?_, fun identifier hne => ?_⟩
  · simp [queue, Token.asked, CallJob.unmade]
  · simp [free, htaken, Table.get?_put]
  · simp [free, htaken, Table.get?_put, hne]

/-- What is left of a list when entries are dropped of which nothing comes. -/
theorem flatMap_filter_of_nil {α β : Type} {f : α → List β} {p : α → Bool} {l : List α}
    (h : ∀ x ∈ l, p x = false → f x = []) : (l.filter p).flatMap f = l.flatMap f := by
  induction l with
  | nil => rfl
  | cons x rest ih =>
    have ih := ih fun y hy => h y (List.mem_cons_of_mem _ hy)
    cases hp : p x with
    | false => simp [hp, h x List.mem_cons_self hp, ih]
    | true => simp [hp, ih]

/-- Entries of one time are not torn apart when the list is split by a time. -/
theorem flatMap_filter_time {α β : Type} {f : Millis × α → List β} {moment : Millis}
    {l : List (Millis × α)} (h : ∀ x ∈ l, x.1 ≠ moment → f x = []) (time : Millis) :
    (l.filter (·.1 ≠ time)).flatMap f ++ (l.filter (·.1 = time)).flatMap f = l.flatMap f := by
  by_cases htime : moment = time
  · subst htime
    have hnone : (l.filter (·.1 ≠ moment)).flatMap f = [] := by
      refine List.flatMap_eq_nil_iff.mpr fun x hx => ?_
      obtain ⟨hmem, hne⟩ := List.mem_filter.mp hx
      exact h x hmem (by simpa using hne)
    rw [hnone, List.nil_append]
    exact flatMap_filter_of_nil fun x hx hne => h x hx (by simpa using hne)
  · have hnone : (l.filter (·.1 = time)).flatMap f = [] := by
      refine List.flatMap_eq_nil_iff.mpr fun x hx => ?_
      obtain ⟨hmem, heq⟩ := List.mem_filter.mp hx
      exact h x hmem fun hm => htime (hm.symm.trans (by simpa using heq))
    rw [hnone, List.append_nil]
    refine flatMap_filter_of_nil fun x hx heq => h x hx fun hm => htime ?_
    exact hm.symm.trans (by simpa using heq)

theorem Plain.unasked_asleep (h : s.Plain) : ∀ x ∈ s.asleep, x.2.unasked = [] := by
  intro x hx
  obtain ⟨-, job, hjob, -⟩ := h.asleep x hx
  rw [hjob]
  rfl

/-- While the clock goes on, what sleeps keeps its order within each line. -/
theorem Plain.waiting_wake (h : s.Plain) (hr : s.ready = []) (time : Millis) :
    ({ s with
      now := time
      ready := (s.asleep.filter (·.1 = time)).map (·.2)
      asleep := s.asleep.filter (·.1 ≠ time) } : CallState).waiting = s.waiting := by
  funext identifier
  let f : Millis × Token CallJob → List (MeasurementCall × Nat) :=
    fun x => x.2.asked.filter (·.1.identifier = identifier)
  have hold : s.waiting identifier = s.asleep.flatMap f := by
    simp [waiting, queue, hr, List.filter_flatMap, List.flatMap_map, f]
  -- all calls of the line that sleep wake up when the instance is free
  have hsame : ∀ x ∈ s.asleep, x.1 ≠ s.free identifier → f x = [] := by
    intro x hx hne
    obtain ⟨-, job, hjob, -, hfree⟩ := h.asleep x hx
    simp only [f, List.filter_eq_nil_iff, decide_eq_true_eq]
    rintro c hc rfl
    rw [hjob] at hc
    exact hne (hfree c hc)
  have hunasked : ((s.asleep.filter (·.1 = time)).map (·.2)).flatMap Token.unasked = [] := by
    rw [List.flatMap_map]
    exact List.flatMap_eq_nil_iff.mpr fun x hx => h.unasked_asleep x (List.mem_of_mem_filter hx)
  rw [hold, ← flatMap_filter_time hsame time, waiting, queue, hunasked, List.append_nil]
  simp [List.filter_flatMap, List.flatMap_map, f]

theorem Plain.sleeping_wake (hr : s.ready = []) (time : Millis) :
    ({ s with
      now := time
      ready := (s.asleep.filter (·.1 = time)).map (·.2)
      asleep := s.asleep.filter (·.1 ≠ time) } : CallState).sleeping.Perm s.sleeping := by
  have hawake : ((s.asleep.filter (·.1 = time)).map (·.2)).flatMap (Token.due time) =
      (s.asleep.filter (·.1 = time)).flatMap fun x => x.2.due x.1 := by
    rw [List.flatMap_map]
    refine List.flatMap_congr fun x hx => ?_
    have htime : x.1 = time := by simpa using (List.mem_filter.mp hx).2
    rw [htime]
  have hsplit := List.filter_append_perm (fun x : Millis × Token CallJob => x.1 = time) s.asleep
  simp only [sleeping, hr, hawake, List.flatMap_nil, List.nil_append, ← List.flatMap_append]
  refine List.Perm.flatMap_right _ ?_
  simpa using hsplit

theorem mem_waiting_of_ready (hr : s.ready = []) {identifier : String}
    {c : MeasurementCall × Nat} : c ∈ s.waiting identifier ↔
      (∃ x ∈ s.asleep, c ∈ x.2.asked) ∧ c.1.identifier = identifier := by
  simp [waiting, queue, hr, List.flatMap_map]

theorem mem_sleeping_of_ready (hr : s.ready = []) {d : Millis × MeasurementCall × Nat} :
    d ∈ s.sleeping ↔ ∃ x ∈ s.asleep, d ∈ x.2.due x.1 := by
  simp [sleeping, hr]

/-- The clock goes on to something that happens, and misses nothing. -/
theorem Plain.wake (h : s.Plain) (hr : s.ready = []) {time : Millis}
    (hleast : (s.asleep.map (·.1)).min? = some time) :
    SleepMove s { s with
      now := time
      ready := (s.asleep.filter (·.1 = time)).map (·.2)
      asleep := s.asleep.filter (·.1 ≠ time) } := by
  obtain ⟨hmem, hle⟩ := List.min?_eq_some_iff.mp hleast
  have hle : ∀ x ∈ s.asleep, time ≤ x.1 := fun x hx => hle x.1 (List.mem_map_of_mem hx)
  obtain ⟨x, hx, rfl⟩ := List.mem_map.mp hmem
  obtain ⟨hlater, job, hjob, -, hfree⟩ := h.asleep x hx
  refine .wake (h.waiting_wake hr x.1) rfl (Plain.sleeping_wake hr x.1) hlater.le
    (fun identifier hne => ?_) (fun d hd => ?_) ?_
  · obtain ⟨c, hc⟩ := List.exists_mem_of_ne_nil _ hne
    obtain ⟨⟨y, hy, hasked⟩, rfl⟩ := (mem_waiting_of_ready hr).mp hc
    obtain ⟨-, other, hother, -, hfree⟩ := h.asleep y hy
    rw [hother] at hasked
    exact (hle y hy).trans_eq (hfree c hasked)
  · obtain ⟨y, hy, hd⟩ := (mem_sleeping_of_ready hr).mp hd
    obtain ⟨-, other, hother, -⟩ := h.asleep y hy
    rw [hother] at hd
    obtain ⟨c, -, rfl⟩ := List.mem_map.mp hd
    exact hle y hy
  · cases job with
    | call i m =>
      have hmade : (m, i) ∈ s.waiting m.identifier :=
        (mem_waiting_of_ready hr).mpr ⟨⟨x, hx, by simp [hjob, Token.asked, CallJob.unmade]⟩, rfl⟩
      exact Or.inl ⟨m.identifier, List.ne_nil_of_mem hmade, hfree (m, i) List.mem_cons_self⟩
    | finish i m outcome =>
      have hdue : (x.1, m, i) ∈ s.sleeping :=
        (mem_sleeping_of_ready hr).mpr ⟨x, hx, by simp [hjob, Token.due, CallJob.made]⟩
      exact Or.inr ⟨_, hdue, rfl⟩

theorem exists_sleepMove (ho : s.timeline.Orderly) (h : s.Plain) (hs : CallStep name s s') :
    SleepMove s s' := by
  cases hs with
  | leave ready idle =>
    refine .still rfl (waiting_of_queue ?_) rfl ?_
    · simp [queue, ready, Token.asked, Token.unasked]
    · simp [sleeping, ready, Token.due]
  | park ready =>
    refine .still rfl (waiting_of_queue ?_) rfl ?_
    · simp [queue, ready, Token.asked, Token.unasked]
    · simp [sleeping, ready, Token.due]
  | launch ready => exact h.launch ho ready
  | retry ready taken =>
    refine .still rfl (waiting_of_queue ?_) rfl ?_
    · simp [queue, ready, Token.asked, Token.unasked]
    · simp [sleeping, ready, Token.due, CallJob.made]
  | @brief i m rest ready free instant =>
    have hz : m.millis = 0 := by
      rw [CallRun.lasts_sleep (h.job ready) h.method] at instant
      exact (Nat.mul_eq_zero.mp instant).resolve_right (by decide)
    refine .brief (begins_brief h ready free hz _) hz ?_
    simp [sleeping, ready, h.due_parkedToken, Token.due, CallJob.made]
  | @take i m rest ready free lasts =>
    refine .take (begins_take h ready free _ _) ?_
    rw [CallRun.lasts_sleep (h.job ready) h.method, after_ofMillis]
    simp only [sleeping, ready, List.flatMap_cons, List.flatMap_append, List.flatMap_nil,
      List.append_nil, Token.due, CallJob.made, List.map_cons, List.map_nil, List.nil_append]
    rw [← List.append_assoc]
    exact List.perm_append_singleton _ _
  | @finish i m outcome rest ready =>
    refine .finish (m := m) (i := i) rfl (waiting_of_queue ?_)
      (free_of_takenUntil (CallRun.takenUntil_finish ..)) (.of_eq ?_)
    · simp [queue, ready, h.asked_parkedToken, h.unasked_parkedToken, Token.asked, Token.unasked,
        CallJob.unmade]
    · simp [sleeping, ready, h.due_parkedToken, Token.due, CallJob.made]
  | wake ready least => exact h.wake ready least

end Solo

end ReplicaLoad

-- The steps of trials. A trial is a timeline with one lane. Its steps are told
-- by what they take away from the tokens that are ready and what they add to
-- the log, and a trial is some sequence of these steps from the beginning, by
-- which the actions that are still to be started become fewer one at a time.
import ReplicaLoad.Pacing.Trial
import ReplicaLoad.Proofs.TimelineTicks

namespace ReplicaLoad

theorem Lane.mem_parkedToken {τ : Type} {l : Lane τ} {i : Nat} {token : Token τ} :
    token ∈ l.parkedToken i ↔ ∃ waiting, l.parked = some waiting ∧ token = .starter i waiting := by
  unfold Lane.parkedToken
  cases l.parked <;> simp

/-! ## Timelines with one lane -/

/-- A timeline with one lane. -/
structure Solo (ω τ : Type) where
  now : Millis
  ready : List (Token τ)
  asleep : List (Millis × Token τ)
  lane : Lane τ
  world : ω

namespace Solo

variable {ω τ : Type}

def timeline (s : Solo ω τ) : Timeline ω τ := ⟨s.now, s.ready, s.asleep, [s.lane], s.world⟩

theorem tokens_timeline (s : Solo ω τ) :
    s.timeline.tokens = s.ready ++ (s.asleep.map (·.2) ++ s.lane.parkedToken 0) := by
  simp [Timeline.tokens, timeline, parkedTokens]

variable {s : Solo ω τ} (ho : s.timeline.Orderly)

include ho

theorem lane_of_mem {token : Token τ} (h : token ∈ s.timeline.tokens) : token.lane = 0 := by
  have := ho.lanes token h
  simp only [timeline, List.length_singleton] at this
  omega

theorem tallied : Timeline.Tallied s.timeline.tokens 0 s.lane := ho.tallied 0 s.lane rfl

/-- While the starter takes its turn there is no other one. -/
theorem alone {waiting : List (Pending τ)} {rest : List (Token τ)}
    (hr : s.ready = .starter 0 waiting :: rest) :
    (∀ other, .starter 0 other ∉ rest) ∧ (∀ x ∈ s.asleep, ∀ other, x.2 ≠ .starter 0 other) ∧
      s.lane.parked = none := by
  have hone := (tallied ho).starter
  rw [tokens_timeline, hr, List.cons_append, List.countP_cons_of_pos (by simp [Token.isStarter]),
    List.countP_append, List.countP_append] at hone
  -- one starter at most, and it is at the head
  have hzero : rest.countP (Token.isStarter 0) = 0 ∧
      (s.asleep.map (·.2)).countP (Token.isStarter 0) = 0 := by
    split at hone <;> omega
  refine ⟨fun other hmem => ?_, fun x hx other heq => ?_, ho.awake hr rfl⟩
  · exact List.countP_eq_zero.mp hzero.1 _ hmem (by simp [Token.isStarter])
  · exact List.countP_eq_zero.mp hzero.2 _ (List.mem_map_of_mem hx) (by simp [heq, Token.isStarter])

/-- A lane that has not ended has its starter. -/
theorem exists_starter (hopen : s.lane.closed = false) :
    ∃ waiting, .starter 0 waiting ∈ s.timeline.tokens := by
  have hone := (tallied ho).starter
  rw [hopen, if_neg Bool.false_ne_true] at hone
  obtain ⟨token, hmem, hstarter⟩ := List.countP_pos_iff.mp (hone ▸ Nat.one_pos)
  cases token with
  | starter i waiting =>
    obtain rfl : i = 0 := lane_of_mem ho hmem
    exact ⟨waiting, hmem⟩
  | job i state => simp [Token.isStarter] at hstarter

/-- A step is the turn of the token that is next, or the clock goes on. -/
theorem step_cases {crew : Crew ω τ} {t' : Timeline ω τ} (hs : s.timeline.step crew = some t') :
    (∃ waiting rest, s.ready = .starter 0 waiting :: rest ∧
      t' = Timeline.starterTurn crew { s.timeline with ready := rest } 0 s.lane waiting) ∨
    (∃ job rest, s.ready = .job 0 job :: rest ∧
      t' = Timeline.jobTurn crew { s.timeline with ready := rest } 0 s.lane job) ∨
    ∃ time, s.ready = [] ∧ (s.asleep.map (·.1)).min? = some time ∧
      t' = ({ s with
        now := time
        ready := (s.asleep.filter (·.1 = time)).map (·.2)
        asleep := s.asleep.filter (·.1 ≠ time) } : Solo ω τ).timeline := by
  have hlane {token : Token τ} {rest : List (Token τ)} (h : s.ready = token :: rest) :
      token.lane = 0 := lane_of_mem ho (by simp [tokens_timeline, h])
  unfold Timeline.step at hs
  split at hs
  · next i waiting rest hr =>
    obtain rfl : i = 0 := hlane hr
    exact Or.inl ⟨waiting, rest, hr, (Option.some.inj hs).symm⟩
  · next i job rest hr =>
    obtain rfl : i = 0 := hlane hr
    exact Or.inr (Or.inl ⟨job, rest, hr, (Option.some.inj hs).symm⟩)
  · next hr =>
    obtain ⟨time, htime, rfl⟩ := Option.map_eq_some_iff.mp hs
    exact Or.inr (Or.inr ⟨time, hr, htime, rfl⟩)

/-- When a lane has ended no token is left. -/
theorem tokens_of_closed (hc : s.lane.closed = true) : s.timeline.tokens = [] := by
  have htally := tallied ho
  refine List.eq_nil_iff_forall_not_mem.mpr fun token hmem => ?_
  have hlane := lane_of_mem ho hmem
  cases token with
  | starter i waiting =>
    obtain rfl : i = 0 := hlane
    have hnone := htally.starter
    rw [hc, if_pos rfl] at hnone
    exact List.countP_eq_zero.mp hnone _ hmem (by simp [Token.isStarter])
  | job i state =>
    obtain rfl : i = 0 := hlane
    have hnone := htally.running
    rw [htally.closed hc] at hnone
    exact List.countP_eq_zero.mp hnone _ hmem (by simp [Token.isJob])

end Solo

/-! ## The steps of a trial -/

abbrev TrialState := Solo TrialLog TrialJob

/-- What a step of a trial does, where the actions begin without a wait of their own. -/
inductive TrialStep (s : TrialState) : TrialState → Prop
  /-- Everything has ended. -/
  | leave {rest} (ready : s.ready = .starter 0 [] :: rest) (idle : s.lane.running = 0) :
      TrialStep s { s with
        ready := rest
        lane := { s.lane with closed := true }
        world := s.world.push (.leave s.now) }
  /-- The starter waits for an action to end: for the last one, or for its permit. -/
  | park {waiting rest} (ready : s.ready = .starter 0 waiting :: rest)
      (busy : waiting = [] ∨ s.lane.permits = some 0) (prompt : ∀ q ∈ waiting.head?, q.pause = 0) :
      TrialStep s { s with ready := rest, lane := { s.lane with parked := some waiting } }
  | pause {q more rest} (ready : s.ready = .starter 0 (q :: more) :: rest) (pause : q.pause ≠ 0) :
      TrialStep s { s with
        ready := rest
        asleep := s.asleep ++ [(s.now.after q.pause, .starter 0 ({ q with pause := 0 } :: more))] }
  /-- The starter takes a permit for an action, which becomes ready. -/
  | launch {q more rest} (ready : s.ready = .starter 0 (q :: more) :: rest) (pause : q.pause = 0)
      (permits : s.lane.permits ≠ some 0) :
      TrialStep s { s with
        ready := .starter 0 more :: (rest ++ [.job 0 q.job])
        lane := s.lane.start }
  | begin {i hold crashes rest} (ready : s.ready = .job 0 (.starting i hold crashes) :: rest)
      (lasts : hold ≠ 0) :
      TrialStep s { s with
        ready := rest
        asleep := s.asleep ++ [(s.now + hold, .job 0 (.ending i crashes))]
        world := s.world.push (.start i s.now) }
  /-- An action starts and ends in one turn. -/
  | brief {i crashes rest} (ready : s.ready = .job 0 (.starting i 0 crashes) :: rest) :
      TrialStep s { s with
        ready := rest ++ s.lane.parkedToken 0
        lane := s.lane.finish
        world := (s.world.push (.start i s.now)).push (.finish ⟨i, s.now, crashes⟩) }
  | finish {i crashes rest} (ready : s.ready = .job 0 (.ending i crashes) :: rest) :
      TrialStep s { s with
        ready := rest ++ s.lane.parkedToken 0
        lane := s.lane.finish
        world := s.world.push (.finish ⟨i, s.now, crashes⟩) }
  /-- The clock goes on. -/
  | wake {time} (ready : s.ready = []) (least : (s.asleep.map (·.1)).min? = some time) :
      TrialStep s { s with
        now := time
        ready := (s.asleep.filter (·.1 = time)).map (·.2)
        asleep := s.asleep.filter (·.1 ≠ time) }

theorem ceilMillis_ofMillis (ms : Nat) : (Nanos.ofMillis ms).ceilMillis = ms := by
  change (ms * 1000000 + (1000000 - 1)) / 1000000 = ms
  omega

theorem after_ofMillis (now ms : Nat) : Millis.after now (Nanos.ofMillis ms) = now + ms :=
  congrArg (now + ·) (ceilMillis_ofMillis ms)

/-- An action has ended: a starter that waits for that becomes ready. -/
theorem Solo.jobTurn_done {ω τ : Type} {crew : Crew ω τ} {s : Solo ω τ} {job : τ} {world : ω}
    (h : crew.turn s.now 0 job s.world = (world, .done)) (rest : List (Token τ)) :
    Timeline.jobTurn crew { s.timeline with ready := rest } 0 s.lane job =
      ({ s with
        ready := rest ++ s.lane.parkedToken 0
        lane := s.lane.finish
        world } : Solo ω τ).timeline := by
  unfold Timeline.jobTurn
  simp only [show s.timeline.now = s.now from rfl, show s.timeline.world = s.world from rfl, h]
  split
  · next waiting hp => simp [Solo.timeline, Timeline.onLane, Lane.parkedToken, hp]
  · next hp => simp [Solo.timeline, Timeline.onLane, Lane.parkedToken, hp]

theorem Solo.jobTurn_wait {ω τ : Type} {crew : Crew ω τ} {s : Solo ω τ} {job next : τ} {world : ω}
    {d : Nanos} (h : crew.turn s.now 0 job s.world = (world, .wait d next)) (hd : d ≠ 0)
    (rest : List (Token τ)) :
    Timeline.jobTurn crew { s.timeline with ready := rest } 0 s.lane job =
      ({ s with
        ready := rest
        asleep := s.asleep ++ [(s.now.after d, .job 0 next)]
        world } : Solo ω τ).timeline := by
  unfold Timeline.jobTurn
  simp only [show s.timeline.now = s.now from rfl, show s.timeline.world = s.world from rfl, h]
  rw [if_neg hd]
  rfl

variable {s : TrialState}

theorem exists_step_starter {waiting : List (Pending TrialJob)} {rest : List (Token TrialJob)}
    (hr : s.ready = .starter 0 waiting :: rest) (hoffset : ∀ q ∈ waiting.head?, q.offset = 0) :
    ∃ s' : TrialState, Timeline.starterTurn trialCrew { s.timeline with ready := rest } 0 s.lane
      waiting = s'.timeline ∧ TrialStep s s' := by
  cases waiting with
  | nil =>
    simp only [Timeline.starterTurn]
    split
    · next hidle => exact ⟨_, rfl, .leave hr hidle⟩
    · exact ⟨_, rfl, .park hr (.inl rfl) (by simp)⟩
  | cons q more =>
    have hq : q.offset = 0 := hoffset q rfl
    simp only [Timeline.starterTurn]
    split
    · next hpause => exact ⟨_, rfl, .pause hr hpause⟩
    · next hpause =>
      have hpause : q.pause = 0 := Decidable.not_not.mp hpause
      split
      · next hpermits =>
        refine ⟨_, rfl, .park hr (.inr hpermits) fun q' hq' => ?_⟩
        cases hq'
        exact hpause
      · next hpermits =>
        rw [if_neg (not_not.mpr hq)]
        exact ⟨_, rfl, .launch hr hpause hpermits⟩

theorem exists_step_job {job : TrialJob} {rest : List (Token TrialJob)}
    (hr : s.ready = .job 0 job :: rest) :
    ∃ s' : TrialState, Timeline.jobTurn trialCrew { s.timeline with ready := rest } 0 s.lane job =
      s'.timeline ∧ TrialStep s s' := by
  cases job with
  | starting i hold crashes =>
    by_cases hzero : hold = 0
    · subst hzero
      exact ⟨_, Solo.jobTurn_done rfl rest, .brief hr⟩
    · have hpos : Nanos.ofMillis hold ≠ 0 := Nat.mul_ne_zero hzero (by decide)
      have hturn : trialCrew.turn s.now 0 (.starting i hold crashes) s.world =
          (s.world.push (.start i s.now), .wait (Nanos.ofMillis hold) (.ending i crashes)) :=
        if_neg hzero
      refine ⟨_, Solo.jobTurn_wait hturn hpos rest, ?_⟩
      rw [after_ofMillis]
      exact .begin hr hzero
  | ending i crashes => exact ⟨_, Solo.jobTurn_done rfl rest, .finish hr⟩

/-- Every step of a trial is one of these, if the next action begins without a wait. -/
theorem exists_trialStep (ho : s.timeline.Orderly)
    (hoffset : ∀ waiting rest, s.ready = .starter 0 waiting :: rest →
      ∀ q ∈ waiting.head?, q.offset = 0)
    {t' : Timeline TrialLog TrialJob} (hs : s.timeline.step trialCrew = some t') :
    ∃ s' : TrialState, t' = s'.timeline ∧ TrialStep s s' := by
  rcases Solo.step_cases ho hs with ⟨waiting, rest, hr, rfl⟩ | ⟨job, rest, hr, rfl⟩ |
    ⟨time, hr, htime, rfl⟩
  · exact exists_step_starter hr (hoffset waiting rest hr)
  · exact exists_step_job hr
  · exact ⟨_, rfl, .wake hr htime⟩

/-- No step is left when everything has ended. -/
theorem TrialStep.open (ho : s.timeline.Orderly) {s' : TrialState} (hs : TrialStep s s') :
    s.lane.closed = false := by
  cases hc : s.lane.closed with
  | false => rfl
  | true =>
    have hnone := Solo.tokens_of_closed ho hc
    simp only [Solo.tokens_timeline, List.append_eq_nil_iff, List.map_eq_nil_iff] at hnone
    obtain ⟨hready, hasleep, -⟩ := hnone
    cases hs with
    | leave ready => cases hready.symm.trans ready
    | park ready => cases hready.symm.trans ready
    | pause ready => cases hready.symm.trans ready
    | launch ready => cases hready.symm.trans ready
    | begin ready => cases hready.symm.trans ready
    | brief ready => cases hready.symm.trans ready
    | finish ready => cases hready.symm.trans ready
    | wake ready least => simp [hasleep] at least

end ReplicaLoad

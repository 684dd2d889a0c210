-- Ticks of timelines. A step of a timeline, told by the times at which the jobs
-- can take their next turns. A sum over the jobs of something that fades with
-- time does not grow while no job takes a turn, and the turn of a job changes
-- it by what the job is before and after.
import Mathlib.Algebra.Order.BigOperators.Group.List
import Mathlib.Algebra.Order.Ring.Nat
import ReplicaLoad.Proofs.CrewRuns

namespace ReplicaLoad

variable {ω τ : Type}

/-! ## Sums over jobs -/

/-- The sum of a quantity over the jobs of a token. -/
def Token.sum (f : τ → Nat) (token : Token τ) : Nat :=
  (token.jobs.map fun x => f x.2).sum

theorem Token.sum_le_sum {f g : τ → Nat} (h : ∀ state, f state ≤ g state) (token : Token τ) :
    token.sum f ≤ token.sum g :=
  List.sum_le_sum fun x _ => h x.2

/-- A quantity of a job and of the time of its next turn that does not grow with the time. -/
def Wanes (f : Millis → τ → Nat) : Prop :=
  ∀ state a b, a ≤ b → f b state ≤ f a state

theorem le_after (now : Millis) (d : Nanos) : now ≤ now.after d := Nat.le_add_right _ _

namespace Timeline

/-- The sum of a quantity over all jobs that have not ended, each with the time at which it can take
its next turn. -/
def tally (f : Millis → τ → Nat) (t : Timeline ω τ) : Nat :=
  (t.ready.map (Token.sum (f t.now))).sum + (t.asleep.map fun x => x.2.sum (f x.1)).sum +
    ((parkedTokens t.lanes).map (Token.sum (f t.now))).sum

variable {f g : Millis → τ → Nat} {t t' : Timeline ω τ}

theorem tally_le_tally (h : ∀ time state, f time state ≤ g time state) : t.tally f ≤ t.tally g := by
  unfold tally
  have hready := List.sum_le_sum fun token (_ : token ∈ t.ready) => token.sum_le_sum (h t.now)
  have hasleep := List.sum_le_sum fun x (_ : x ∈ t.asleep) => x.2.sum_le_sum (h x.1)
  have hparked := List.sum_le_sum fun token (_ : token ∈ parkedTokens t.lanes) =>
    token.sum_le_sum (h t.now)
  omega

theorem tally_of_ready {token : Token τ} {rest : List (Token τ)} (h : t.ready = token :: rest) :
    t.tally f = token.sum (f t.now) + { t with ready := rest }.tally f := by
  simp only [tally, h, List.map_cons, List.sum_cons]
  omega

theorem tally_push (token : Token τ) :
    { t with ready := t.ready ++ [token] }.tally f = token.sum (f t.now) + t.tally f := by
  simp only [tally, List.map_append, List.sum_append, List.map_cons, List.sum_cons, List.map_nil,
    List.sum_nil]
  omega

theorem tally_sleep (d : Nanos) (token : Token τ) :
    (t.sleep d token).tally f = token.sum (f (t.now.after d)) + t.tally f := by
  simp only [tally, sleep, List.map_append, List.sum_append, List.map_cons, List.sum_cons,
    List.map_nil, List.sum_nil]
  omega

/-- The sum when one lane is changed. -/
theorem tally_onLane {i : Nat} {l : Lane τ} (h : t.lanes[i]? = some l) (change : Lane τ → Lane τ) :
    ∃ others, t.tally f = ((l.parkedToken i).map (Token.sum (f t.now))).sum + others ∧
      (t.onLane i change).tally f =
        (((change l).parkedToken i).map (Token.sum (f t.now))).sum + others := by
  obtain ⟨others, hp, hp'⟩ := parkedTokens_modify h change
  have hsum := (hp.map (Token.sum (f t.now))).sum_nat
  have hsum' := (hp'.map (Token.sum (f t.now))).sum_nat
  rw [List.map_append, List.sum_append] at hsum hsum'
  refine ⟨(t.ready.map (Token.sum (f t.now))).sum + (t.asleep.map fun x => x.2.sum (f x.1)).sum +
    (others.map (Token.sum (f t.now))).sum, ?_, ?_⟩
  · unfold tally
    omega
  · unfold tally onLane
    dsimp only
    omega

theorem tally_onLane_of_parked {i : Nat} {l : Lane τ} (h : t.lanes[i]? = some l)
    (change : Lane τ → Lane τ) (hc : (change l).parked = l.parked) :
    (t.onLane i change).tally f = t.tally f := by
  obtain ⟨others, hbefore, hafter⟩ := tally_onLane (f := f) h change
  unfold Lane.parkedToken at hbefore hafter
  rw [hc] at hafter
  omega

/-! ## Steps with their times -/

/-- All that is asleep wakes up later. -/
def Ahead (t : Timeline ω τ) : Prop := ∀ x ∈ t.asleep, t.now ≤ x.1

end Timeline

/-- The same crew with jobs that end with their first turn. -/
def Crew.tireless (crew : Crew ω τ) : Crew ω τ :=
  { crew with turn := fun now i state world => ((crew.turn now i state world).1, .done) }

theorem Crew.sized_tireless (crew : Crew ω τ) (size : τ → Nat) : crew.tireless.Sized size := by
  intro now i state world d next h
  cases h

namespace Timeline

/-- The effects of a step, told by the times of the jobs. -/
inductive Tick (crew : Crew ω τ) (t t' : Timeline ω τ) : Prop
  /-- No job takes a turn. -/
  | pass (world : t'.world = t.world ∨ ∃ i, t'.world = crew.close t.now i t.world)
      (tally : ∀ f, Wanes f → t'.tally f ≤ t.tally f) (work : ∀ size, t'.work size < t.work size)
  | done {i state} (turn : (crew.turn t.now i state t.world).2 = .done)
      (world : t'.world = (crew.turn t.now i state t.world).1)
      (tally : ∀ f, t'.tally f + f t.now state = t.tally f)
      (work : ∀ size, t'.work size < t.work size)
  | wait {i state d next} (turn : (crew.turn t.now i state t.world).2 = .wait d next)
      (world : t'.world = (crew.turn t.now i state t.world).1)
      (tally : ∀ f, t'.tally f + f t.now state = t.tally f + f (t.now.after d) next)
      (work : ∀ size : τ → Nat,
        t'.work size + 2 * size state ≤ t.work size + 2 * size next + 1)

variable {crew : Crew ω τ} {f : Millis → τ → Nat} {t t' : Timeline ω τ}

theorem tally_starterTurn (h : Orderly t) {i : Nat} {waiting : List (Pending τ)}
    {rest : List (Token τ)} (hr : t.ready = .starter i waiting :: rest) {l : Lane τ}
    (hl : t.lanes[i]? = some l) (hf : Wanes f) :
    (starterTurn crew { t with ready := rest } i l waiting).tally f ≤ t.tally f := by
  have hawake := h.awake hr hl
  have hl' : { t with ready := rest }.lanes[i]? = some l := hl
  have ht := tally_of_ready (f := f) hr
  -- a starter that begins to wait takes its jobs with it
  have hpark : ({ t with ready := rest }.onLane i ({ · with parked := some waiting })).tally f =
      t.tally f := by
    obtain ⟨others, hbefore, hafter⟩ :=
      tally_onLane (f := f) hl' ({ · with parked := some waiting })
    simp only [Lane.parkedToken, hawake, Option.map_none, Option.map_some, Option.toList_none,
      Option.toList_some, List.map_cons, List.map_nil, List.sum_cons, List.sum_nil] at hbefore hafter
    omega
  cases waiting with
  | nil =>
    simp only [starterTurn]
    split
    · have hclose := tally_onLane_of_parked (f := f) hl' ({ · with closed := true }) rfl
      change ({ t with ready := rest }.onLane i _).tally f ≤ _
      omega
    · exact hpark.le
  | cons p waiting =>
    simp only [starterTurn]
    split
    · rw [tally_sleep, ht]
      have hlater := (Token.starter i (p :: waiting)).sum_le_sum
        fun state => hf state _ _ (le_after t.now p.pause)
      exact Nat.add_le_add_right hlater _
    · split
      · exact hpark.le
      · have hstart := tally_onLane_of_parked (f := f) hl' Lane.start rfl
        have hhead : (Token.starter i (p :: waiting)).sum (f t.now) =
            f t.now p.job + (Token.starter i waiting).sum (f t.now) := by
          simp [Token.sum, Token.jobs]
        have hjob (time : Millis) : (Token.job i p.job).sum (f time) = f time p.job := by
          simp [Token.sum, Token.jobs]
        split
        · rw [tally_sleep, hjob, tally_of_ready rfl]
          have hlater := hf p.job _ _ (le_after t.now p.offset)
          change f (t.now.after p.offset) p.job + ((Token.starter i waiting).sum (f t.now) +
            ({ t with ready := rest }.onLane i Lane.start).tally f) ≤ _
          omega
        · rw [tally_of_ready rfl]
          change (Token.starter i waiting).sum (f t.now) +
            { { t with ready := rest }.onLane i Lane.start with
              ready := rest ++ [Token.job i p.job] }.tally f ≤ _
          have hpush := tally_push (f := f) (t := { t with ready := rest }.onLane i Lane.start)
            (.job i p.job)
          change { { t with ready := rest }.onLane i Lane.start with
            ready := rest ++ [Token.job i p.job] }.tally f = (Token.job i p.job).sum (f t.now) + _
            at hpush
          rw [hjob] at hpush
          omega

theorem tally_wake {time : Millis} (hready : t.ready = []) (hlater : t.now ≤ time) (hf : Wanes f) :
    ({ t with
      now := time
      ready := (t.asleep.filter (·.1 = time)).map (·.2)
      asleep := t.asleep.filter (·.1 ≠ time) } : Timeline ω τ).tally f ≤ t.tally f := by
  have hsplit : (t.asleep.filter (·.1 = time) ++ t.asleep.filter (·.1 ≠ time)).Perm t.asleep := by
    simpa using List.filter_append_perm (fun x : Millis × Token τ => x.1 = time) t.asleep
  have hsum := (hsplit.map fun x : Millis × Token τ => x.2.sum (f x.1)).sum_nat
  rw [List.map_append, List.sum_append] at hsum
  -- those that wake up do so at their time
  have hawake : (((t.asleep.filter (·.1 = time)).map (·.2)).map (Token.sum (f time))).sum =
      ((t.asleep.filter (·.1 = time)).map fun x : Millis × Token τ => x.2.sum (f x.1)).sum := by
    rw [List.map_map]
    refine congrArg List.sum (List.map_congr_left fun x hx => ?_)
    have htime : x.1 = time := by simpa using (List.mem_filter.mp hx).2
    simp only [Function.comp_apply, htime]
  have hparked : ((parkedTokens t.lanes).map (Token.sum (f time))).sum ≤
      ((parkedTokens t.lanes).map (Token.sum (f t.now))).sum :=
    List.sum_le_sum fun token _ => token.sum_le_sum fun state => hf state _ _ hlater
  simp only [tally, hready, List.map_nil, List.sum_nil]
  omega

theorem tally_jobTurn_done {i : Nat} {state : τ} {rest : List (Token τ)}
    (hr : t.ready = .job i state :: rest) {l : Lane τ} (hl : t.lanes[i]? = some l)
    (hdone : (crew.turn t.now i state t.world).2 = .done) :
    (jobTurn crew { t with ready := rest } i l state).tally f + f t.now state = t.tally f := by
  let world := (crew.turn t.now i state t.world).1
  have hjob : (Token.job i state).sum (f t.now) = f t.now state := by simp [Token.sum, Token.jobs]
  have ht := tally_of_ready (f := f) hr
  obtain ⟨others, hbefore, hafter⟩ :=
    tally_onLane (f := f) (t := { t with ready := rest, world }) hl Lane.finish
  change { t with ready := rest }.tally f =
    ((l.parkedToken i).map (Token.sum (f t.now))).sum + others at hbefore
  -- the starter of a lane in which a job has ended is not parked
  change ({ t with ready := rest, world }.onLane i Lane.finish).tally f = 0 + others at hafter
  unfold jobTurn
  simp only [hdone]
  split
  · next waiting hparked =>
    have hpush := tally_push (f := f)
      (t := { t with ready := rest, world }.onLane i Lane.finish) (.starter i waiting)
    have hstarter : ((l.parkedToken i).map (Token.sum (f t.now))).sum =
        (Token.starter i waiting).sum (f t.now) := by
      simp [Lane.parkedToken, hparked]
    change { { t with ready := rest, world }.onLane i Lane.finish with
      ready := rest ++ [Token.starter i waiting] }.tally f =
        (Token.starter i waiting).sum (f t.now) + _ at hpush
    change { { t with ready := rest, world }.onLane i Lane.finish with
      ready := rest ++ [Token.starter i waiting] }.tally f + _ = _
    omega
  · next hparked =>
    have hnone : ((l.parkedToken i).map (Token.sum (f t.now))).sum = 0 := by
      simp [Lane.parkedToken, hparked]
    change ({ t with ready := rest, world }.onLane i Lane.finish).tally f + _ = _
    omega

theorem tally_jobTurn_wait {i : Nat} {state next : τ} {d : Nanos} {rest : List (Token τ)}
    (hr : t.ready = .job i state :: rest) (l : Lane τ)
    (hwait : (crew.turn t.now i state t.world).2 = .wait d next) :
    (jobTurn crew { t with ready := rest } i l state).tally f + f t.now state =
      t.tally f + f (t.now.after d) next := by
  have hjob (state : τ) (time : Millis) : (Token.job i state).sum (f time) = f time state := by
    simp [Token.sum, Token.jobs]
  have ht := tally_of_ready (f := f) hr
  rw [hjob] at ht
  unfold jobTurn
  simp only [hwait]
  split
  · next hzero =>
    subst hzero
    rw [tally_of_ready rfl, hjob]
    change f t.now next + { t with ready := rest }.tally f + _ = _ + f t.now next
    omega
  · rw [tally_sleep, hjob]
    change f (t.now.after d) next + { t with ready := rest }.tally f + _ = _
    omega

theorem ahead_sleep (ha : t.Ahead) (d : Nanos) (token : Token τ) : (t.sleep d token).Ahead := by
  intro x hx
  rcases List.mem_append.mp hx with hx | hx
  · exact ha x hx
  · rw [List.mem_singleton.mp hx]
    exact le_after t.now d

/-- The clock does not go back. -/
theorem ahead_step (ha : t.Ahead) (hs : t.step crew = some t') : t'.Ahead := by
  unfold step at hs
  split at hs
  · next i waiting rest hr =>
    cases hs
    split
    · next l hl =>
      cases waiting with
      | nil =>
        simp only [starterTurn]
        split
        · exact ha
        · exact ha
      | cons p waiting =>
        simp only [starterTurn]
        split
        · exact ahead_sleep (t := { t with ready := rest }) ha _ _
        · split
          · exact ha
          · split
            · exact ahead_sleep (t := { { t with ready := rest }.onLane i Lane.start with
                ready := .starter i waiting :: rest }) ha _ _
            · exact ha
    · exact ha
  · next i state rest hr =>
    cases hs
    split
    · next l hl =>
      unfold jobTurn
      dsimp only
      split
      · split
        · exact ha
        · exact ha
      · split
        · exact ha
        · exact ahead_sleep (t := { t with
            ready := rest, world := (crew.turn t.now i state t.world).1 }) ha _ _
    · exact ha
  · next hr =>
    obtain ⟨time, htime, rfl⟩ := Option.map_eq_some_iff.mp hs
    intro x hx
    have hmem := List.mem_of_mem_filter hx
    exact (List.min?_eq_some_iff.mp htime).2 x.1 (List.mem_map_of_mem hmem)

/-- Every step of an orderly timeline is of one of the three kinds. -/
theorem step_tick (h : Orderly t) (ha : t.Ahead) (hs : t.step crew = some t') : Tick crew t t' := by
  -- where no job begins to wait, the step is one of the crew whose jobs end at once
  have hwork (htireless : t.step crew.tireless = some t') (size : τ → Nat) :
      t'.work size < t.work size :=
    (step_move h htireless).work_lt (crew.sized_tireless size)
  cases hready : t.ready with
  | nil =>
    -- all that is ready is done, so the clock goes on to the next job that wakes up
    have htireless : t.step crew.tireless = some t' := by
      rw [← hs]
      simp only [step, hready]
    have hwake := hs
    simp only [step, hready] at hwake
    obtain ⟨time, htime, rfl⟩ := Option.map_eq_some_iff.mp hwake
    obtain ⟨x, hx, hxt⟩ := List.mem_map.mp (List.min?_mem htime)
    have hlater : t.now ≤ time := hxt ▸ ha x hx
    exact .pass (.inl rfl) (fun f hf => tally_wake hready hlater hf) (hwork htireless)
  | cons token rest =>
    have hi : token.lane < t.lanes.length := h.lanes token (by simp [tokens_of_ready hready])
    have hl := List.getElem?_eq_getElem hi
    cases token with
    | starter i waiting =>
      simp only [step, hready, show t.lanes[i]? = some _ from hl, Option.some.injEq] at hs
      have htireless : t.step crew.tireless = some t' := by
        simp only [step, hready, show t.lanes[i]? = some _ from hl, ← hs]
        rfl
      refine .pass ?_ (fun f hf => ?_) (hwork htireless)
      · rw [← hs]
        cases waiting with
        | nil =>
          simp only [starterTurn]
          split
          · exact .inr ⟨i, rfl⟩
          · exact .inl rfl
        | cons p waiting =>
          simp only [starterTurn]
          split
          · exact .inl rfl
          · split
            · exact .inl rfl
            · split
              · exact .inl rfl
              · exact .inl rfl
      · rw [← hs]
        exact tally_starterTurn h hready hl hf
    | job i state =>
      simp only [step, hready, show t.lanes[i]? = some _ from hl, Option.some.injEq] at hs
      have hworld : t'.world = (crew.turn t.now i state t.world).1 := by
        rw [← hs]
        unfold jobTurn
        dsimp only
        split
        · split
          · rfl
          · rfl
        · split
          · rfl
          · rfl
      cases hturn : (crew.turn t.now i state t.world).2 with
      | done =>
        have htireless : t.step crew.tireless = some t' := by
          simp only [step, hready, show t.lanes[i]? = some _ from hl, ← hs]
          simp only [jobTurn, Crew.tireless, hturn]
        refine .done hturn hworld (fun f => ?_) (hwork htireless)
        rw [← hs]
        exact tally_jobTurn_done hready hl hturn
      | wait d next =>
        refine .wait hturn hworld (fun f => ?_) fun size => ?_
        · rw [← hs]
          exact tally_jobTurn_wait hready _ hturn
        · -- the job is moved to a place of its own, and its lane stays as it is
          have ht := tokens_of_ready hready
          rw [← hs]
          unfold jobTurn
          simp only [hturn]
          split
          · exact work_wait (.of_eq ht) (.refl _) rfl (by simp)
          · exact work_wait (.of_eq ht) (tokens_sleep _ _ _) rfl (by simp [sleep])

end Timeline

end ReplicaLoad

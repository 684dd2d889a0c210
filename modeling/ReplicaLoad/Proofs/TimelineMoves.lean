-- Moves of timelines. A step of a timeline, told by the tokens that it moves
-- from one place to another. A timeline is orderly: every lane has one starter
-- until it ends, knows how many of its jobs are running, and keeps its starter
-- waiting only while there is such a job.
import ReplicaLoad.Pacing.Timeline
import Mathlib.Data.List.Nodup

namespace ReplicaLoad

variable {ω τ : Type}

/-! ## Tokens -/

namespace Token

def lane : Token τ → Nat
  | starter i _ => i
  | job i _ => i

def jobs : Token τ → List (Nat × τ)
  | starter i waiting => waiting.map fun p => (i, p.job)
  | job i state => [(i, state)]

def isStarter (i : Nat) : Token τ → Bool
  | starter j _ => j = i
  | job _ _ => false

def isJob (i : Nat) : Token τ → Bool
  | starter _ _ => false
  | job j _ => j = i

end Token

/-- The starter of a lane that waits for a job to end. -/
def Lane.parkedToken (i : Nat) (l : Lane τ) : List (Token τ) :=
  (l.parked.map (Token.starter i)).toList

def parkedTokens (lanes : List (Lane τ)) : List (Token τ) :=
  lanes.zipIdx.flatMap fun (l, i) => l.parkedToken i

theorem parkedTokens_modify {lanes : List (Lane τ)} {i : Nat} {l : Lane τ}
    (h : lanes[i]? = some l) (f : Lane τ → Lane τ) :
    ∃ others, (parkedTokens lanes).Perm (l.parkedToken i ++ others) ∧
      (parkedTokens (lanes.modify i f)).Perm ((f l).parkedToken i ++ others) := by
  obtain ⟨hi, rfl⟩ := List.getElem?_eq_some_iff.mp h
  have hsplit : lanes = lanes.take i ++ lanes[i] :: lanes.drop (i + 1) := by simp
  have hmodify : lanes.modify i f = lanes.take i ++ f lanes[i] :: lanes.drop (i + 1) := by
    rw [List.modify_eq_take_cons_drop hi]
  have hlength : (lanes.take i).length = i := by simp; omega
  -- what stands before and after the lane is the same in both
  have hparked : ∀ l : Lane τ, (parkedTokens (lanes.take i ++ l :: lanes.drop (i + 1))).Perm
      (l.parkedToken i ++ (parkedTokens (lanes.take i) ++
        ((lanes.drop (i + 1)).zipIdx (i + 1)).flatMap fun (l, i) => l.parkedToken i)) := by
    intro l
    unfold parkedTokens
    rw [List.zipIdx_append, List.flatMap_append, hlength, List.zipIdx_cons, List.flatMap_cons]
    simp only [Nat.zero_add]
    exact List.perm_append_comm_assoc _ _ _
  refine ⟨_, (List.Perm.of_eq (congrArg parkedTokens hsplit)).trans (hparked _), ?_⟩
  rw [hmodify]
  exact hparked _

namespace Timeline

/-- All tokens: those that are ready, those that are asleep, and the starters that wait for jobs to
end. -/
def tokens (t : Timeline ω τ) : List (Token τ) :=
  t.ready ++ (t.asleep.map (·.2) ++ parkedTokens t.lanes)

/-- The tokens when one lane is changed. -/
theorem tokens_onLane {t : Timeline ω τ} {i : Nat} {l : Lane τ} (h : t.lanes[i]? = some l)
    (f : Lane τ → Lane τ) :
    ∃ others, t.tokens.Perm (l.parkedToken i ++ others) ∧
      (t.onLane i f).tokens.Perm ((f l).parkedToken i ++ others) := by
  obtain ⟨others, hp, hp'⟩ := parkedTokens_modify h f
  have hmove : ∀ token : List (Token τ),
      (t.ready ++ (t.asleep.map (·.2) ++ (token ++ others))).Perm
        (token ++ (t.ready ++ (t.asleep.map (·.2) ++ others))) := by
    intro token
    refine List.Perm.trans ?_ (List.perm_append_comm_assoc _ _ _)
    exact (List.perm_append_comm_assoc _ _ _).append_left _
  exact ⟨_, ((hp.append_left _).append_left _).trans (hmove _),
    ((hp'.append_left _).append_left _).trans (hmove _)⟩

/-- A lane has one starter until it ends, counts its jobs, and keeps its starter waiting only while
there are some. -/
structure Tallied (tokens : List (Token τ)) (i : Nat) (l : Lane τ) : Prop where
  starter : tokens.countP (Token.isStarter i) = if l.closed then 0 else 1
  running : tokens.countP (Token.isJob i) = l.running
  parked : l.parked.isSome = true → 0 < l.running
  closed : l.closed = true → l.running = 0
  permits : ∀ k, l.permits = some k → 0 < k + l.running

/-- What holds at every moment of a run. -/
structure Orderly (t : Timeline ω τ) : Prop where
  lanes : ∀ token ∈ t.tokens, token.lane < t.lanes.length
  tallied : ∀ i l, t.lanes[i]? = some l → Tallied t.tokens i l

/-! ## What a step does -/

theorem tokens_sleep (t : Timeline ω τ) (d : Nanos) (token : Token τ) :
    (t.sleep d token).tokens.Perm (token :: t.tokens) := by
  unfold tokens sleep
  simp only [List.map_append, List.map_cons, List.map_nil, List.append_assoc]
  rw [← List.append_assoc, ← List.append_assoc t.ready]
  exact List.perm_middle

theorem tokens_push (t : Timeline ω τ) (token : Token τ) :
    { t with ready := t.ready ++ [token] }.tokens.Perm (token :: t.tokens) := by
  unfold tokens
  simp only [List.append_assoc, List.cons_append, List.nil_append]
  exact List.perm_middle

theorem tokens_of_ready {t : Timeline ω τ} {token : Token τ} {rest : List (Token τ)}
    (h : t.ready = token :: rest) : t.tokens = token :: { t with ready := rest }.tokens := by
  simp [tokens, h]

/-- A change of a lane that leaves its waiting starter alone changes no tokens. -/
theorem tokens_onLane_of_parked {t : Timeline ω τ} {i : Nat} {l : Lane τ}
    (h : t.lanes[i]? = some l) {f : Lane τ → Lane τ} (hf : (f l).parked = l.parked) :
    (t.onLane i f).tokens.Perm t.tokens := by
  obtain ⟨others, hp, hp'⟩ := tokens_onLane h f
  unfold Lane.parkedToken at hp hp'
  rw [hf] at hp'
  exact hp'.trans hp.symm

/-- The effects of a step, told by the tokens that it moves. -/
inductive Move (crew : Crew ω τ) (t t' : Timeline ω τ) : Prop
  /-- The clock goes on. -/
  | wake (tokens : t'.tokens.Perm t.tokens) (lanes : t'.lanes = t.lanes)
      (world : t'.world = t.world) (asleep : t'.asleep.length < t.asleep.length)
  | pause {i p rest others} (before : t.tokens.Perm (.starter i (p :: rest) :: others))
      (after : t'.tokens.Perm (.starter i ({ p with pause := 0 } :: rest) :: others))
      (pause : p.pause ≠ 0) (lanes : t'.lanes = t.lanes) (world : t'.world = t.world)
      (asleep : t'.asleep.length = t.asleep.length + 1)
  /-- The starter begins to wait for a job to end. -/
  | park {i l waiting} (lane : t.lanes[i]? = some l) (awake : l.parked = none)
      (busy : l.running ≠ 0 ∨ l.permits = some 0) (tokens : t'.tokens.Perm t.tokens)
      (lanes : t'.lanes = t.lanes.modify i ({ · with parked := some waiting }))
      (world : t'.world = t.world) (asleep : t'.asleep.length = t.asleep.length)
  | start {i l p rest others} (lane : t.lanes[i]? = some l)
      (before : t.tokens.Perm (.starter i (p :: rest) :: others))
      (after : t'.tokens.Perm (.starter i rest :: .job i p.job :: others))
      (permits : l.permits ≠ some 0) (lanes : t'.lanes = t.lanes.modify i Lane.start)
      (world : t'.world = t.world) (asleep : t'.asleep.length ≤ t.asleep.length + 1)
  | finish {i l state others} (lane : t.lanes[i]? = some l)
      (before : t.tokens.Perm (.job i state :: others)) (after : t'.tokens.Perm others)
      (done : (crew.turn t.now i state t.world).2 = .done)
      (lanes : t'.lanes = t.lanes.modify i Lane.finish)
      (world : t'.world = (crew.turn t.now i state t.world).1)
      (asleep : t'.asleep.length = t.asleep.length)
  | wait {i state d next others} (before : t.tokens.Perm (.job i state :: others))
      (after : t'.tokens.Perm (.job i next :: others))
      (waits : (crew.turn t.now i state t.world).2 = .wait d next) (lanes : t'.lanes = t.lanes)
      (world : t'.world = (crew.turn t.now i state t.world).1)
      (asleep : t'.asleep.length ≤ t.asleep.length + 1)
  | close {i l others} (lane : t.lanes[i]? = some l)
      (before : t.tokens.Perm (.starter i [] :: others)) (after : t'.tokens.Perm others)
      (idle : l.running = 0) (lanes : t'.lanes = t.lanes.modify i ({ · with closed := true }))
      (world : t'.world = crew.close t.now i t.world)
      (asleep : t'.asleep.length = t.asleep.length)

/-- The starter of a lane is in one place. -/
theorem Orderly.awake {t : Timeline ω τ} (h : Orderly t) {i : Nat} {waiting : List (Pending τ)}
    {rest : List (Token τ)} (hr : t.ready = .starter i waiting :: rest) {l : Lane τ}
    (hl : t.lanes[i]? = some l) : l.parked = none := by
  have hone := (h.tallied i l hl).starter
  obtain ⟨others, hp, -⟩ := tokens_onLane (t := { t with ready := rest }) hl id
  rw [tokens_of_ready hr, List.countP_cons, hp.countP_eq, List.countP_append] at hone
  rcases hw : l.parked with _ | waiting'
  · rfl
  · simp only [Lane.parkedToken, hw, Option.map_some, Option.toList_some, Token.isStarter,
      List.countP_singleton, decide_true, if_true] at hone
    split at hone <;> omega

variable {crew : Crew ω τ} {t t' : Timeline ω τ}

theorem starterTurn_move (h : Orderly t) {i : Nat} {waiting : List (Pending τ)}
    {rest : List (Token τ)} (hr : t.ready = .starter i waiting :: rest) {l : Lane τ}
    (hl : t.lanes[i]? = some l) :
    Move crew t (starterTurn crew { t with ready := rest } i l waiting) := by
  have ht := tokens_of_ready hr
  have hawake := h.awake hr hl
  have hl' : { t with ready := rest }.lanes[i]? = some l := hl
  -- a starter that begins to wait is moved to its lane
  have hpark : (l.running ≠ 0 ∨ l.permits = some 0) →
      Move crew t ({ t with ready := rest }.onLane i ({ · with parked := some waiting })) := by
    intro hbusy
    obtain ⟨others, hp, hp'⟩ := tokens_onLane hl' ({ · with parked := some waiting })
    refine .park hl hawake hbusy ?_ rfl rfl rfl
    rw [ht]
    unfold Lane.parkedToken at hp
    rw [hawake] at hp
    exact hp'.trans (hp.symm.cons _)
  cases waiting with
  | nil =>
    simp only [starterTurn]
    split
    · rename_i hidle
      exact .close hl (.of_eq ht) (tokens_onLane_of_parked hl' rfl) hidle rfl rfl rfl
    · rename_i hbusy
      exact hpark (Or.inl hbusy)
  | cons p waiting =>
    simp only [starterTurn]
    split
    · rename_i hpause
      exact .pause (.of_eq ht) (tokens_sleep _ _ _) hpause rfl rfl (by simp [sleep])
    · split
      · rename_i hpermits
        exact hpark (Or.inr hpermits)
      · rename_i hpermits
        have hs := tokens_onLane_of_parked hl' (f := Lane.start) rfl
        split
        · refine .start hl (.of_eq ht) ?_ hpermits rfl rfl (by simp [sleep, onLane])
          refine (tokens_sleep _ _ _).trans (List.Perm.trans ?_ (.swap _ _ _))
          exact (hs.cons _).cons _
        · refine .start hl (.of_eq ht) ?_ hpermits rfl rfl (by simp [onLane])
          exact ((tokens_push _ _).trans (hs.cons _)).cons _

theorem jobTurn_move {i : Nat} {state : τ} {rest : List (Token τ)}
    (hr : t.ready = .job i state :: rest) {l : Lane τ} (hl : t.lanes[i]? = some l) :
    Move crew t (jobTurn crew { t with ready := rest } i l state) := by
  have ht := tokens_of_ready hr
  unfold jobTurn
  dsimp only
  split
  · rename_i hdone
    obtain ⟨others, hp, hp'⟩ :=
      tokens_onLane (t := { t with ready := rest, world := (crew.turn t.now i state t.world).1 })
        hl Lane.finish
    unfold Lane.parkedToken at hp hp'
    split
    · rename_i waiting hw
      refine .finish hl (.of_eq ht) ?_ hdone rfl rfl rfl
      rw [hw] at hp
      exact (tokens_push _ _).trans ((hp'.cons _).trans hp.symm)
    · rename_i hw
      refine .finish hl (.of_eq ht) ?_ hdone rfl rfl rfl
      rw [hw] at hp
      exact hp'.trans hp.symm
  · rename_i d next hwait
    split
    · exact .wait (.of_eq ht) (.refl _) hwait rfl rfl (by simp)
    · exact .wait (.of_eq ht) (tokens_sleep _ _ _) hwait rfl rfl (by simp [sleep])

/-- Every step of an orderly timeline is one of the moves. -/
theorem step_move (h : Orderly t) (hs : t.step crew = some t') : Move crew t t' := by
  unfold step at hs
  split at hs
  · rename_i i waiting rest hr
    have hi : i < t.lanes.length := h.lanes (.starter i waiting) (by simp [tokens_of_ready hr])
    simp only [List.getElem?_eq_getElem hi, Option.some.injEq] at hs
    rw [← hs]
    exact starterTurn_move h hr (List.getElem?_eq_getElem hi)
  · rename_i i state rest hr
    have hi : i < t.lanes.length := h.lanes (.job i state) (by simp [tokens_of_ready hr])
    simp only [List.getElem?_eq_getElem hi, Option.some.injEq] at hs
    rw [← hs]
    exact jobTurn_move hr (List.getElem?_eq_getElem hi)
  · rename_i hr
    obtain ⟨time, htime, rfl⟩ := Option.map_eq_some_iff.mp hs
    refine .wake ?_ rfl rfl ?_
    · unfold tokens
      rw [hr, List.nil_append, ← List.append_assoc, ← List.map_append]
      refine List.Perm.append_right _ (List.Perm.map _ ?_)
      simpa using List.filter_append_perm (fun x : Millis × Token τ => x.1 = time) t.asleep
    · -- somebody wakes up
      obtain ⟨x, hx, hxt⟩ := List.mem_map.mp (List.min?_mem htime)
      refine List.length_filter_lt_length_iff_exists.mpr ⟨x, hx, ?_⟩
      simp [hxt]

/-! ## Order is kept -/

theorem Tallied.congr {tokens tokens' : List (Token τ)} {i : Nat} {l : Lane τ}
    (h : Tallied tokens i l)
    (hs : tokens'.countP (Token.isStarter i) = tokens.countP (Token.isStarter i))
    (hj : tokens'.countP (Token.isJob i) = tokens.countP (Token.isJob i)) :
    Tallied tokens' i l where
  starter := hs.trans h.starter
  running := hj.trans h.running
  parked := h.parked
  closed := h.closed
  permits := h.permits

theorem Tallied.open_of_starter {tokens others : List (Token τ)} {i : Nat} {l : Lane τ}
    {waiting : List (Pending τ)} (h : Tallied tokens i l)
    (hp : tokens.Perm (.starter i waiting :: others)) : l.closed = false := by
  have hone := h.starter
  rw [hp.countP_eq, List.countP_cons_of_pos (by simp [Token.isStarter])] at hone
  cases hc : l.closed with
  | false => rfl
  | true => simp [hc] at hone

theorem Tallied.running_pos {tokens others : List (Token τ)} {i : Nat} {l : Lane τ} {state : τ}
    (h : Tallied tokens i l) (hp : tokens.Perm (.job i state :: others)) : 0 < l.running := by
  have hrun := h.running
  rw [hp.countP_eq, List.countP_cons_of_pos (by simp [Token.isJob])] at hrun
  omega

/-- Lanes stay tallied when one of them is changed, if the changed one is. -/
theorem tallied_modify {lanes : List (Lane τ)} {tokens : List (Token τ)} {i j : Nat}
    {f : Lane τ → Lane τ} {l : Lane τ} (hi : ∀ l, lanes[i]? = some l → Tallied tokens i (f l))
    (hj : ∀ l, j ≠ i → lanes[j]? = some l → Tallied tokens j l)
    (h : (lanes.modify i f)[j]? = some l) : Tallied tokens j l := by
  rw [List.getElem?_modify] at h
  obtain ⟨l', hl', rfl⟩ := Option.map_eq_some_iff.mp h
  by_cases hij : i = j
  · subst hij
    rw [if_pos rfl]
    exact hi l' hl'
  · rw [if_neg hij]
    exact hj l' (Ne.symm hij) hl'

theorem Tallied.park {tokens : List (Token τ)} {i : Nat} {l : Lane τ} {waiting : List (Pending τ)}
    (h : Tallied tokens i l) (hbusy : l.running ≠ 0 ∨ l.permits = some 0) :
    Tallied tokens i { l with parked := some waiting } where
  starter := h.starter
  running := h.running
  parked := by
    intro _
    -- without a permit there is a job that holds it
    rcases hbusy with hr | hp
    · exact Nat.pos_of_ne_zero hr
    · simpa using h.permits 0 hp
  closed := h.closed
  permits := h.permits

theorem Tallied.start {tokens tokens' others : List (Token τ)} {i : Nat} {l : Lane τ}
    {p : Pending τ} {rest : List (Pending τ)} (h : Tallied tokens i l)
    (hb : tokens.Perm (.starter i (p :: rest) :: others))
    (ha : tokens'.Perm (.starter i rest :: .job i p.job :: others)) :
    Tallied tokens' i l.start where
  starter := by
    have hs := h.starter
    rw [hb.countP_eq, List.countP_cons_of_pos (by simp [Token.isStarter])] at hs
    rw [ha.countP_eq, List.countP_cons_of_pos (by simp [Token.isStarter]),
      List.countP_cons_of_neg (by simp [Token.isStarter])]
    exact hs
  running := by
    have hr := h.running
    rw [hb.countP_eq] at hr
    rw [ha.countP_eq]
    simpa [List.countP_cons, Token.isJob, Lane.start] using hr
  parked := fun _ => Nat.succ_pos _
  closed := by
    intro hc
    have hopen := h.open_of_starter hb
    exact absurd (hopen.symm.trans hc) (by simp)
  permits := by
    intro k _
    exact Nat.lt_of_lt_of_le (Nat.succ_pos _) (Nat.le_add_left _ _)

theorem Tallied.finish {tokens tokens' : List (Token τ)} {i : Nat} {l : Lane τ} {state : τ}
    (h : Tallied tokens i l) (hb : tokens.Perm (.job i state :: tokens')) :
    Tallied tokens' i l.finish where
  starter := by
    have hs := h.starter
    rw [hb.countP_eq, List.countP_cons_of_neg (by simp [Token.isStarter])] at hs
    exact hs
  running := by
    have hr := h.running
    rw [hb.countP_eq, List.countP_cons_of_pos (by simp [Token.isJob])] at hr
    simp only [Lane.finish]
    omega
  parked := fun hp => absurd hp (by simp [Lane.finish])
  closed := by
    intro hc
    have := h.closed hc
    simp [Lane.finish, this]
  permits := by
    intro k hk
    obtain ⟨k', -, rfl⟩ := Option.map_eq_some_iff.mp hk
    omega

theorem Tallied.close {tokens tokens' : List (Token τ)} {i : Nat} {l : Lane τ}
    (h : Tallied tokens i l) (hb : tokens.Perm (.starter i [] :: tokens')) (hr : l.running = 0) :
    Tallied tokens' i { l with closed := true } where
  starter := by
    have hs := h.starter
    rw [hb.countP_eq, List.countP_cons_of_pos (by simp [Token.isStarter]),
      h.open_of_starter hb] at hs
    simpa using hs
  running := by
    have hrun := h.running
    rw [hb.countP_eq] at hrun
    simpa [List.countP_cons, Token.isJob] using hrun
  parked := h.parked
  closed := fun _ => hr
  permits := h.permits

/-- A move keeps a timeline orderly. -/
theorem Move.orderly (h : Orderly t) (hm : Move crew t t') : Orderly t' := by
  cases hm with
  | wake tokens lanes =>
    refine ⟨fun token htoken => ?_, fun j l hl => ?_⟩
    · rw [lanes]
      exact h.lanes token (tokens.subset htoken)
    · rw [lanes] at hl
      exact (h.tallied j l hl).congr (tokens.countP_eq _) (tokens.countP_eq _)
  | @pause i p rest others before after _ lanes =>
    refine ⟨fun token htoken => ?_, fun j l hl => ?_⟩
    · have hi := h.lanes (.starter i (p :: rest)) (before.symm.subset (by simp))
      rw [lanes]
      rcases List.mem_cons.mp (after.subset htoken) with rfl | ho
      · exact hi
      · exact h.lanes token (before.symm.subset (by simp [ho]))
    · rw [lanes] at hl
      refine (h.tallied j l hl).congr ?_ ?_
      · rw [before.countP_eq, after.countP_eq]
        simp [List.countP_cons, Token.isStarter]
      · rw [before.countP_eq, after.countP_eq]
        simp [Token.isJob]
  | @park i l₀ waiting lane _ busy tokens lanes =>
    refine ⟨fun token htoken => ?_, fun j l hl => ?_⟩
    · rw [lanes, List.length_modify]
      exact h.lanes token (tokens.subset htoken)
    · rw [lanes] at hl
      refine tallied_modify (fun l hl => ?_) (fun l _ hl => ?_) hl
      · cases lane.symm.trans hl
        exact ((h.tallied i _ hl).congr (tokens.countP_eq _) (tokens.countP_eq _)).park busy
      · exact (h.tallied j l hl).congr (tokens.countP_eq _) (tokens.countP_eq _)
  | @start i l₀ p rest others lane before after _ lanes =>
    refine ⟨fun token htoken => ?_, fun j l hl => ?_⟩
    · have hi := h.lanes (.starter i (p :: rest)) (before.symm.subset (by simp))
      rw [lanes, List.length_modify]
      rcases List.mem_cons.mp (after.subset htoken) with rfl | ho
      · exact hi
      · rcases List.mem_cons.mp ho with rfl | ho
        · exact hi
        · exact h.lanes token (before.symm.subset (by simp [ho]))
    · rw [lanes] at hl
      refine tallied_modify (fun l hl => ?_) (fun l hne hl => ?_) hl
      · exact (h.tallied i l hl).start before after
      · refine (h.tallied j l hl).congr ?_ ?_
        · rw [before.countP_eq, after.countP_eq]
          simp [List.countP_cons, Token.isStarter]
        · rw [before.countP_eq, after.countP_eq]
          simp [Token.isJob, Ne.symm hne]
  | @finish i l₀ state others lane before after _ lanes =>
    have hp := before.trans (after.symm.cons _)
    refine ⟨fun token htoken => ?_, fun j l hl => ?_⟩
    · rw [lanes, List.length_modify]
      exact h.lanes token (hp.symm.subset (by simp [htoken]))
    · rw [lanes] at hl
      refine tallied_modify (fun l hl => ?_) (fun l hne hl => ?_) hl
      · exact (h.tallied i l hl).finish hp
      · refine (h.tallied j l hl).congr ?_ ?_
        · rw [hp.countP_eq]
          simp [Token.isStarter]
        · rw [hp.countP_eq]
          simp [Token.isJob, Ne.symm hne]
  | @wait i state d next others before after _ lanes =>
    refine ⟨fun token htoken => ?_, fun j l hl => ?_⟩
    · have hi := h.lanes (.job i state) (before.symm.subset (by simp))
      rw [lanes]
      rcases List.mem_cons.mp (after.subset htoken) with rfl | ho
      · exact hi
      · exact h.lanes token (before.symm.subset (by simp [ho]))
    · rw [lanes] at hl
      refine (h.tallied j l hl).congr ?_ ?_
      · rw [before.countP_eq, after.countP_eq]
        simp [Token.isStarter]
      · rw [before.countP_eq, after.countP_eq]
        simp [List.countP_cons, Token.isJob]
  | @close i l₀ others lane before after idle lanes =>
    have hp := before.trans (after.symm.cons _)
    refine ⟨fun token htoken => ?_, fun j l hl => ?_⟩
    · rw [lanes, List.length_modify]
      exact h.lanes token (hp.symm.subset (by simp [htoken]))
    · rw [lanes] at hl
      refine tallied_modify (fun l hl => ?_) (fun l hne hl => ?_) hl
      · cases lane.symm.trans hl
        exact (h.tallied i _ hl).close hp idle
      · refine (h.tallied j l hl).congr ?_ ?_
        · rw [hp.countP_eq]
          simp [Token.isStarter, Ne.symm hne]
        · rw [hp.countP_eq]
          simp [Token.isJob]

end Timeline

end ReplicaLoad

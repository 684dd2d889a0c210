-- The course of trials. What every trial has in common, whatever its load is,
-- as long as no action begins with a wait of its own: the actions start in the
-- order of the list, each of them once; each ends once, so long after its start
-- as it takes, whether it crashes or not; and the tuning set returns when the
-- last of them ends.
import ReplicaLoad.Proofs.CallRuns
import ReplicaLoad.Proofs.TrialSteps

namespace ReplicaLoad

/-! ## Actions -/

/-- The actions of a trial: how long each of them takes, and which of them crash at their end. -/
structure Workload where
  holds : List Millis
  crashes : Nat → Bool

namespace Workload

def count (w : Workload) : Nat := w.holds.length

def hold (w : Workload) (i : Nat) : Millis := w.holds.getD i 0

def job (w : Workload) (i : Nat) : TrialJob := .starting i (w.hold i) (w.crashes i)

def jobs (w : Workload) : List TrialJob :=
  w.holds.zipIdx.map fun (hold, i) => .starting i hold (w.crashes i)

def lanes (w : Workload) (p : Pacing) : List (Pacing × List TrialJob) := [(p, w.jobs)]

/-- The end of an action with a start. -/
def endOf (w : Workload) (start : Nat × Millis) : TrialEnd :=
  ⟨start.1, start.2 + w.hold start.1, w.crashes start.1⟩

def pending (w : Workload) (p : Pacing) (i : Nat) : Pending TrialJob :=
  ⟨p.pause i, p.offset i, w.job i⟩

/-- The actions from an index on. -/
def rest (w : Workload) (p : Pacing) (k : Nat) : List (Pending TrialJob) :=
  (List.range' k (w.count - k)).map (w.pending p)

/-- What a starter has still to do when so many actions are on their way: the pause before the next
one may be over already. -/
inductive Remains (w : Workload) (p : Pacing) : Nat → List (Pending TrialJob) → Prop
  | nothing {k : Nat} (all : k = w.count) : Remains w p k []
  | next {k : Nat} {pause : Nanos} (below : k < w.count) (pauses : pause = p.pause k ∨ pause = 0) :
      Remains w p k ({ w.pending p k with pause } :: w.rest p (k + 1))

theorem Remains.head {w : Workload} {p : Pacing} {k : Nat} {q : Pending TrialJob}
    {more : List (Pending TrialJob)} (h : w.Remains p k (q :: more)) :
    k < w.count ∧ q.job = w.job k ∧ more = w.rest p (k + 1) ∧
      (q.pause = p.pause k ∨ q.pause = 0) := by
  cases h with
  | next below pauses => exact ⟨below, rfl, rfl, pauses⟩

theorem rest_of_lt (w : Workload) (p : Pacing) {k : Nat} (h : k < w.count) :
    w.rest p k = w.pending p k :: w.rest p (k + 1) := by
  unfold rest
  rw [show w.count - k = w.count - (k + 1) + 1 by omega, List.range'_succ, List.map_cons]

theorem rest_of_le (w : Workload) (p : Pacing) {k : Nat} (h : w.count ≤ k) : w.rest p k = [] := by
  rw [rest, Nat.sub_eq_zero_of_le h, List.range'_zero, List.map_nil]

theorem remains_rest (w : Workload) (p : Pacing) {k : Nat} (h : k ≤ w.count) :
    w.Remains p k (w.rest p k) := by
  rcases Nat.lt_or_eq_of_le h with hlt | heq
  · rw [w.rest_of_lt p hlt]
    exact .next hlt (Or.inl rfl)
  · rw [w.rest_of_le p heq.ge]
    exact .nothing heq

theorem schedule_jobs (w : Workload) (p : Pacing) : p.schedule w.jobs = w.rest p 0 := by
  unfold Pacing.schedule jobs rest count
  refine List.ext_getElem (by simp) fun i hi hi' => ?_
  have hlt : i < w.holds.length := by simpa using hi
  simp [pending, job, hold, hlt]

theorem permits_lanes (w : Workload) {p : Pacing} (hpermits : p.permits ≠ some 0) :
    ∀ lane ∈ w.lanes p, lane.1.permits ≠ some 0 := by
  intro lane hlane
  rw [List.mem_singleton.mp hlane]
  exact hpermits

end Workload

/-! ## Logs -/

namespace TrialLog

variable (log : TrialLog)

@[simp] theorem events_push (e : TrialEvent) : (log.push e).events = log.events ++ [e] := rfl

@[simp] theorem starts_start (i : Nat) (time : Millis) :
    (log.push (.start i time)).starts = log.starts ++ [(i, time)] := List.filterMap_append

@[simp] theorem starts_finish (e : TrialEnd) : (log.push (.finish e)).starts = log.starts := by
  simp [starts, TrialEvent.start?]

@[simp] theorem starts_leave (time : Millis) : (log.push (.leave time)).starts = log.starts := by
  simp [starts, TrialEvent.start?]

@[simp] theorem ends_start (i : Nat) (time : Millis) :
    (log.push (.start i time)).ends = log.ends := by
  simp [ends, TrialEvent.end?]

@[simp] theorem ends_finish (e : TrialEnd) : (log.push (.finish e)).ends = log.ends ++ [e] :=
  List.filterMap_append

@[simp] theorem ends_leave (time : Millis) : (log.push (.leave time)).ends = log.ends := by
  simp [ends, TrialEvent.end?]

end TrialLog

/-! ## Trials under way -/

/-- The job of a token that has not had its first turn. -/
def Token.starting? : Token TrialJob → Option TrialJob
  | .job _ (.starting i hold crashes) => some (.starting i hold crashes)
  | _ => none

@[simp] theorem filterMap_starting_starter (i : Nat) (waiting : List (Pending TrialJob))
    (rest : List (Token TrialJob)) :
    (Token.starter i waiting :: rest).filterMap Token.starting? =
      rest.filterMap Token.starting? := rfl

@[simp] theorem filterMap_starting_ending (lane i : Nat) (crashes : Bool)
    (rest : List (Token TrialJob)) :
    (Token.job lane (.ending i crashes) :: rest).filterMap Token.starting? =
      rest.filterMap Token.starting? := rfl

@[simp] theorem filterMap_starting_starting (lane i : Nat) (hold : Millis) (crashes : Bool)
    (rest : List (Token TrialJob)) :
    (Token.job lane (.starting i hold crashes) :: rest).filterMap Token.starting? =
      .starting i hold crashes :: rest.filterMap Token.starting? := rfl

/-- The end that a token waits for, if it can take its next turn at a time. -/
def Token.end? (time : Millis) : Token TrialJob → Option TrialEnd
  | .job _ (.ending i crashes) => some ⟨i, time, crashes⟩
  | _ => none

namespace Solo

/-- The ends of the actions that have started and not ended. -/
def due (s : TrialState) : List TrialEnd :=
  s.ready.filterMap (Token.end? s.now) ++ s.asleep.filterMap fun x => x.2.end? x.1

/-- The number of actions that the starter has taken a permit for. -/
def launched (s : TrialState) : Nat :=
  s.world.starts.length + (s.ready.filterMap Token.starting?).length

end Solo

/-- The beginning of a trial. -/
def Workload.begin (w : Workload) (p : Pacing) : TrialState where
  now := 0
  ready := [.starter 0 (w.rest p 0)]
  asleep := []
  lane := { permits := p.permits }
  world := {}

theorem Workload.timeline_begin (w : Workload) (p : Pacing) :
    (w.begin p).timeline = .start 0 (w.lanes p) {} := by
  unfold Timeline.start
  simp [Workload.begin, Workload.lanes, Solo.timeline, w.schedule_jobs p]

/-- The states of a trial. -/
inductive Workload.Reached (w : Workload) (p : Pacing) : TrialState → Prop
  | begin : Reached w p (w.begin p)
  | step {s s' : TrialState} (before : Reached w p s)
      (next : s.timeline.step trialCrew = some s'.timeline) (step : TrialStep s s') : Reached w p s'

/-! ## The order of the starts -/

/-- The actions start in the order of the list: first come those that have started, then those that
are ready to, then those that the starter has still got. -/
structure Solo.Lined (w : Workload) (p : Pacing) (s : TrialState) : Prop where
  order : s.world.starts.map (fun x => w.job x.1) ++ s.ready.filterMap Token.starting? =
    (List.range s.launched).map w.job
  ready : ∀ waiting, .starter 0 waiting ∈ s.ready → w.Remains p s.launched waiting
  asleep : ∀ x ∈ s.asleep, (∃ i crashes, x.2 = .job 0 (.ending i crashes)) ∨
    ∃ q more, x.2 = .starter 0 (q :: more) ∧ q.pause = 0 ∧ w.Remains p s.launched (q :: more)
  parked : ∀ waiting, s.lane.parked = some waiting →
    w.Remains p s.launched waiting ∧ (waiting = [] ∨ s.lane.permits = some 0)
  closed : s.lane.closed = true → s.launched = w.count

namespace Solo.Lined

variable {w : Workload} {p : Pacing} {s s' : TrialState}

theorem of_launched {k : Nat} (hk : s.launched = k)
    (order : s.world.starts.map (fun x => w.job x.1) ++ s.ready.filterMap Token.starting? =
      (List.range k).map w.job)
    (ready : ∀ waiting, .starter 0 waiting ∈ s.ready → w.Remains p k waiting)
    (asleep : ∀ x ∈ s.asleep, (∃ i crashes, x.2 = .job 0 (.ending i crashes)) ∨
      ∃ q more, x.2 = .starter 0 (q :: more) ∧ q.pause = 0 ∧ w.Remains p k (q :: more))
    (parked : ∀ waiting, s.lane.parked = some waiting →
      w.Remains p k waiting ∧ (waiting = [] ∨ s.lane.permits = some 0))
    (closed : s.lane.closed = true → k = w.count) : s.Lined w p := by
  subst hk
  exact ⟨order, ready, asleep, parked, closed⟩

/-- An action that is ready to start is the next one. -/
theorem eq_job (h : s.Lined w p) {i : Nat} {hold : Millis} {crashes : Bool}
    {rest : List (Token TrialJob)} (hr : s.ready = .job 0 (.starting i hold crashes) :: rest) :
    i = s.world.starts.length ∧ hold = w.hold i ∧ crashes = w.crashes i := by
  have hnext := congrArg (·[s.world.starts.length]?) h.order
  rw [hr, filterMap_starting_starting] at hnext
  have hlaunched : s.world.starts.length < s.launched := by
    simp [launched, hr]
  simp only [List.getElem?_append_right (List.length_map _).le, List.length_map, Nat.sub_self,
    List.getElem?_cons_zero, List.getElem?_map, List.getElem?_range hlaunched,
    Option.map_some] at hnext
  unfold Workload.job at hnext
  injection hnext with hnext
  injection hnext with hi hh hc
  subst hi
  exact ⟨rfl, hh, hc⟩

theorem offset_eq_zero (h : s.Lined w p) (hoffset : ∀ i, p.offset i = 0)
    (waiting : List (Pending TrialJob)) (rest : List (Token TrialJob))
    (hr : s.ready = .starter 0 waiting :: rest) : ∀ q ∈ waiting.head?, q.offset = 0 := by
  have hremains := h.ready waiting (by simp [hr])
  cases hremains with
  | nothing => exact nofun
  | next below pauses =>
    intro q hq
    cases hq
    exact hoffset _

theorem begin (w : Workload) (p : Pacing) : (w.begin p).Lined w p where
  order := rfl
  ready := by
    intro waiting hmem
    cases List.mem_singleton.mp hmem
    exact w.remains_rest p (Nat.zero_le _)
  asleep := nofun
  parked := nofun
  closed := nofun

theorem filterMap_parkedToken (l : Lane TrialJob) :
    (l.parkedToken 0).filterMap Token.starting? = [] := by
  unfold Lane.parkedToken
  cases l.parked <;> rfl

/-- A starter that has waited for an action to end goes on with what it had. -/
theorem ready_finish (h : s.Lined w p) {token : Token TrialJob} {rest : List (Token TrialJob)}
    (hr : s.ready = token :: rest) (waiting : List (Pending TrialJob))
    (hmem : .starter 0 waiting ∈ rest ++ s.lane.parkedToken 0) :
    w.Remains p s.launched waiting := by
  rcases List.mem_append.mp hmem with hmem | hmem
  · exact h.ready waiting (by simp [hr, hmem])
  · obtain ⟨other, hparked, heq⟩ := Lane.mem_parkedToken.mp hmem
    cases heq
    exact (h.parked waiting hparked).1

/-- The order is kept. -/
theorem step (ho : s.timeline.Orderly) (h : s.Lined w p) (hs : TrialStep s s') : s'.Lined w p := by
  have horder := h.order
  cases hs with
  | @leave rest ready idle =>
    have hk : s.launched = w.count := by
      cases h.ready [] (by simp [ready]) with
      | nothing all => exact all
    rw [ready] at horder
    refine .of_launched (k := s.launched) (by simp [launched, ready]) ?_ ?_ h.asleep
      h.parked fun _ => hk
    · simpa using horder
    · intro waiting hmem
      exact h.ready waiting (by simp [ready, hmem])
  | @park waiting rest ready busy prompt =>
    rw [ready] at horder
    refine .of_launched (k := s.launched) (by simp [launched, ready]) ?_ ?_ h.asleep
      ?_ h.closed
    · exact horder
    · intro other hmem
      exact h.ready other (by simp [ready, hmem])
    · intro other hother
      cases hother
      exact ⟨h.ready waiting (by simp [ready]), busy⟩
  | @pause q more rest ready pause =>
    rw [ready] at horder
    refine .of_launched (k := s.launched) (by simp [launched, ready]) ?_ ?_ ?_
      h.parked h.closed
    · exact horder
    · intro other hmem
      exact h.ready other (by simp [ready, hmem])
    · intro x hx
      rcases List.mem_append.mp hx with hx | hx
      · exact h.asleep x hx
      · -- the pause is over when the starter wakes up
        rw [List.mem_singleton.mp hx]
        refine Or.inr ⟨_, more, rfl, rfl, ?_⟩
        cases h.ready (q :: more) (by simp [ready]) with
        | next below pauses => exact .next below (Or.inr rfl)
  | @launch q more rest ready pause permits =>
    obtain ⟨hrest, hasleep, hparked⟩ := alone ho ready
    obtain ⟨hbelow, hjob, rfl, -⟩ := (h.ready (q :: more) (by simp [ready])).head
    have hstarting : (rest ++ [Token.job 0 q.job]).filterMap Token.starting? =
        rest.filterMap Token.starting? ++ [w.job s.launched] := by
      rw [List.filterMap_append, hjob]
      rfl
    rw [ready] at horder
    refine .of_launched (k := s.launched + 1) ?_ ?_ ?_ ?_ ?_ ?_
    · rw [launched, filterMap_starting_starter, hstarting, List.length_append, ← Nat.add_assoc,
        launched, ready]
      rfl
    · rw [List.range_succ, List.map_append, ← horder, filterMap_starting_starter, hstarting,
        List.append_assoc]
      rfl
    · intro other hmem
      rcases List.mem_cons.mp hmem with heq | hmem
      · cases heq
        exact w.remains_rest p hbelow
      · rcases List.mem_append.mp hmem with hmem | hmem
        · exact absurd hmem (hrest other)
        · cases List.mem_singleton.mp hmem
    · intro x hx
      refine (h.asleep x hx).imp id fun ⟨q', more', heq, _⟩ => ?_
      exact absurd heq (hasleep x hx _)
    · intro other hother
      cases hparked.symm.trans hother
    · intro hclosed
      have := h.closed hclosed
      omega
  | @begin i hold crashes rest ready lasts =>
    obtain ⟨-, rfl, rfl⟩ := h.eq_job ready
    rw [ready] at horder
    refine .of_launched (k := s.launched) ?_ ?_ ?_ ?_ h.parked h.closed
    · simp [launched, ready]
      omega
    · rw [← horder]
      simp [Workload.job]
    · intro other hmem
      exact h.ready other (by simp [ready, hmem])
    · intro x hx
      rcases List.mem_append.mp hx with hx | hx
      · exact h.asleep x hx
      · rw [List.mem_singleton.mp hx]
        exact Or.inl ⟨i, _, rfl⟩
  | @brief i crashes rest ready =>
    obtain ⟨-, hhold, rfl⟩ := h.eq_job ready
    rw [ready] at horder
    refine .of_launched (k := s.launched) ?_ ?_ (h.ready_finish ready) h.asleep nofun h.closed
    · simp [launched, ready, filterMap_parkedToken]
      omega
    · rw [← horder]
      simp [Workload.job, filterMap_parkedToken, ← hhold]
  | @finish i crashes rest ready =>
    rw [ready] at horder
    refine .of_launched (k := s.launched) ?_ ?_ (h.ready_finish ready) h.asleep nofun h.closed
    · simp [launched, ready, filterMap_parkedToken]
    · rw [← horder]
      simp [filterMap_parkedToken]
  | @wake time ready least =>
    -- nobody who sleeps has still to start
    have hnone : ((s.asleep.filter (·.1 = time)).map (·.2)).filterMap Token.starting? = [] := by
      refine List.filterMap_eq_nil_iff.mpr fun token htoken => ?_
      obtain ⟨x, hx, rfl⟩ := List.mem_map.mp htoken
      rcases h.asleep x (List.mem_of_mem_filter hx) with ⟨i, c, heq⟩ | ⟨q, more, heq, -⟩
      · rw [heq]
        rfl
      · rw [heq]
        rfl
    rw [ready] at horder
    refine .of_launched (k := s.launched) ?_ ?_ ?_ ?_ h.parked h.closed
    · simp [launched, ready, hnone]
    · rw [hnone]
      exact horder
    · intro other hmem
      obtain ⟨x, hx, heq⟩ := List.mem_map.mp hmem
      rcases h.asleep x (List.mem_of_mem_filter hx) with ⟨i, c, hjob⟩ | ⟨q, more, hstarter, -, hr⟩
      · cases hjob.symm.trans heq
      · cases hstarter.symm.trans heq
        exact hr
    · intro x hx
      exact h.asleep x (List.mem_of_mem_filter hx)

end Solo.Lined

variable {w : Workload} {p : Pacing} {s s' : TrialState}

theorem Workload.Reached.orderly (hpermits : p.permits ≠ some 0) (h : w.Reached p s) :
    s.timeline.Orderly := by
  induction h with
  | begin =>
    rw [w.timeline_begin]
    exact Timeline.orderly_start 0 (w.permits_lanes hpermits) ({} : TrialLog)
  | step before next step ih => exact (Timeline.step_move ih next).orderly ih

theorem Workload.Reached.lined (hpermits : p.permits ≠ some 0) (h : w.Reached p s) :
    s.Lined w p := by
  induction h with
  | begin => exact .begin w p
  | step before next step ih => exact ih.step (before.orderly hpermits) step

/-! ## The ends -/

namespace Solo

/-- Every action that has started has ended, or will end, when it has lasted as long as it takes. -/
def Balanced (w : Workload) (s : TrialState) : Prop :=
  (s.world.ends ++ s.due).Perm (s.world.starts.map w.endOf)

theorem filterMap_end_parkedToken (time : Millis) (l : Lane TrialJob) :
    (l.parkedToken 0).filterMap (Token.end? time) = [] := by
  unfold Lane.parkedToken
  cases l.parked <;> rfl

@[simp] theorem filterMap_end_starter (time : Millis) (i : Nat) (waiting : List (Pending TrialJob))
    (rest : List (Token TrialJob)) :
    (Token.starter i waiting :: rest).filterMap (Token.end? time) =
      rest.filterMap (Token.end? time) := rfl

@[simp] theorem filterMap_end_starting (time : Millis) (lane i : Nat) (hold : Millis)
    (crashes : Bool) (rest : List (Token TrialJob)) :
    (Token.job lane (.starting i hold crashes) :: rest).filterMap (Token.end? time) =
      rest.filterMap (Token.end? time) := rfl

@[simp] theorem filterMap_end_ending (time : Millis) (lane i : Nat) (crashes : Bool)
    (rest : List (Token TrialJob)) :
    (Token.job lane (.ending i crashes) :: rest).filterMap (Token.end? time) =
      ⟨i, time, crashes⟩ :: rest.filterMap (Token.end? time) := rfl

section Due

variable {i : Nat} {hold : Millis} {crashes : Bool} {rest : List (Token TrialJob)}
  (lane : Lane TrialJob) (world : TrialLog)

theorem due_begin (hr : s.ready = .job 0 (.starting i hold crashes) :: rest) (time : Millis) :
    due ⟨s.now, rest, s.asleep ++ [(time, .job 0 (.ending i crashes))], lane, world⟩ =
      s.due ++ [⟨i, time, crashes⟩] := by
  simp [due, hr, Token.end?]

theorem due_brief (hr : s.ready = .job 0 (.starting i hold crashes) :: rest) :
    due ⟨s.now, rest ++ s.lane.parkedToken 0, s.asleep, lane, world⟩ = s.due := by
  simp [due, hr, filterMap_end_parkedToken]

theorem due_finish (hr : s.ready = .job 0 (.ending i crashes) :: rest) :
    s.due = ⟨i, s.now, crashes⟩ ::
      due ⟨s.now, rest ++ s.lane.parkedToken 0, s.asleep, lane, world⟩ := by
  simp [due, hr, filterMap_end_parkedToken]

end Due

/-- The ends that are due stay the same when the clock goes on. -/
theorem due_wake (hr : s.ready = []) (lane : Lane TrialJob) (world : TrialLog) (time : Millis) :
    (due ⟨time, (s.asleep.filter (·.1 = time)).map (·.2), s.asleep.filter (·.1 ≠ time), lane,
      world⟩).Perm s.due := by
  have hsplit : (s.asleep.filter (·.1 = time) ++ s.asleep.filter (·.1 ≠ time)).Perm s.asleep := by
    simpa using List.filter_append_perm (fun x : Millis × Token TrialJob => x.1 = time) s.asleep
  -- those that wake up do so at their time
  have hawake : ((s.asleep.filter (·.1 = time)).map (·.2)).filterMap (Token.end? time) =
      (s.asleep.filter (·.1 = time)).filterMap fun x => x.2.end? x.1 := by
    rw [List.filterMap_map]
    refine List.filterMap_congr fun x hx => ?_
    have htime : x.1 = time := by simpa using (List.mem_filter.mp hx).2
    simp [htime]
  unfold due
  rw [hawake, hr, ← List.filterMap_append]
  exact hsplit.filterMap _

theorem due_launch (hl : s.Lined w p) {q : Pending TrialJob} {more : List (Pending TrialJob)}
    {rest : List (Token TrialJob)} (hr : s.ready = .starter 0 (q :: more) :: rest)
    (lane : Lane TrialJob) (world : TrialLog) :
    due ⟨s.now, .starter 0 more :: (rest ++ [.job 0 q.job]), s.asleep, lane, world⟩ = s.due := by
  obtain ⟨-, hjob, -⟩ := (hl.ready (q :: more) (by simp [hr])).head
  simp [due, hr, hjob, Workload.job]

theorem Balanced.step (hl : s.Lined w p) (h : s.Balanced w) (hs : TrialStep s s') :
    s'.Balanced w := by
  unfold Balanced at h ⊢
  cases hs with
  | leave ready idle => simpa [due, ready] using h
  | park ready busy prompt => simpa [due, ready] using h
  | pause ready pause => simpa [due, ready, Token.end?] using h
  | launch ready pause permits =>
    rw [due_launch hl ready]
    exact h
  | @begin i hold crashes rest ready lasts =>
    obtain ⟨-, rfl, rfl⟩ := hl.eq_job ready
    rw [due_begin _ _ ready, TrialLog.ends_start, TrialLog.starts_start, List.map_append,
      ← List.append_assoc]
    exact h.append (.refl _)
  | @brief i crashes rest ready =>
    obtain ⟨-, hhold, rfl⟩ := hl.eq_job ready
    rw [due_brief _ _ ready, TrialLog.ends_finish, TrialLog.ends_start, TrialLog.starts_finish,
      TrialLog.starts_start, List.map_append, List.map_singleton, Workload.endOf, ← hhold,
      List.append_assoc]
    exact (List.perm_append_comm.append_left _).trans
      ((List.Perm.of_eq (List.append_assoc _ _ _).symm).trans (h.append (.refl _)))
  | @finish i crashes rest ready =>
    rw [due_finish _ _ ready] at h
    rw [TrialLog.ends_finish, TrialLog.starts_finish, List.append_assoc]
    exact h
  | @wake time ready least => exact ((due_wake ready _ _ time).append_left _).trans h

end Solo

theorem Workload.Reached.balanced (hpermits : p.permits ≠ some 0) (h : w.Reached p s) :
    s.Balanced w := by
  induction h with
  | begin => exact .refl _
  | step before next step ih => exact ih.step (before.lined hpermits) step

/-! ## The times -/

theorem TrialEvent.time_of_start? {e : TrialEvent} {x : Nat × Millis} (h : e.start? = some x) :
    x.2 = e.time := by
  cases e with
  | start i time =>
    cases h
    rfl
  | finish => cases h
  | leave => cases h

theorem TrialLog.finish_mem_of_mem_ends {log : TrialLog} {e : TrialEnd} (h : e ∈ log.ends) :
    .finish e ∈ log.events := by
  obtain ⟨event, hmem, he⟩ := List.mem_filterMap.mp h
  cases event with
  | start => cases he
  | finish e' =>
    cases he
    exact hmem
  | leave => cases he

theorem ceilMillis_pos {d : Nat} (h : d ≠ 0) : 0 < Nanos.ceilMillis d := by
  change 0 < (d + (1000000 - 1)) / 1000000
  omega

theorem lt_after (now : Millis) {d : Nanos} (h : d ≠ 0) : now < now.after d :=
  Nat.lt_add_of_pos_right (ceilMillis_pos h)

namespace Solo

/-- What has happened is in the past, in the order in which it happened, and who sleeps will wake
up in the future. -/
structure Timed (s : TrialState) : Prop where
  past : ∀ e ∈ s.world.events, e.time ≤ s.now
  sorted : s.world.events.Pairwise fun e e' => e.time ≤ e'.time
  asleep : ∀ x ∈ s.asleep, s.now < x.1

theorem Timed.starts_le (h : s.Timed) : ∀ x ∈ s.world.starts, x.2 ≤ s.now := by
  intro x hx
  obtain ⟨e, he, hstart⟩ := List.mem_filterMap.mp hx
  rw [TrialEvent.time_of_start? hstart]
  exact h.past e he

theorem Timed.ends_le (h : s.Timed) : ∀ e ∈ s.world.ends, e.time ≤ s.now :=
  fun _ he => h.past _ (TrialLog.finish_mem_of_mem_ends he)

theorem Timed.push (h : s.Timed) {e : TrialEvent} (he : e.time = s.now) :
    (∀ e' ∈ (s.world.push e).events, e'.time ≤ s.now) ∧
      (s.world.push e).events.Pairwise fun e e' => e.time ≤ e'.time := by
  constructor
  · intro e' hmem
    rcases List.mem_append.mp hmem with hmem | hmem
    · exact h.past e' hmem
    · rw [List.mem_singleton.mp hmem]
      exact he.le
  · refine List.pairwise_append.mpr ⟨h.sorted, List.pairwise_singleton _ _, fun e' he' f hf => ?_⟩
    rw [List.mem_singleton.mp hf, he]
    exact h.past e' he'

theorem Timed.sleep (h : s.Timed) {time : Millis} (hlater : s.now < time) (token : Token TrialJob) :
    ∀ x ∈ s.asleep ++ [(time, token)], s.now < x.1 := by
  intro x hx
  rcases List.mem_append.mp hx with hx | hx
  · exact h.asleep x hx
  · rw [List.mem_singleton.mp hx]
    exact hlater

theorem Timed.step (h : s.Timed) (hs : TrialStep s s') : s'.Timed := by
  cases hs with
  | leave ready idle => exact ⟨(h.push rfl).1, (h.push rfl).2, h.asleep⟩
  | park ready busy prompt => exact ⟨h.past, h.sorted, h.asleep⟩
  | pause ready pause => exact ⟨h.past, h.sorted, h.sleep (lt_after _ pause) _⟩
  | launch ready pause permits => exact ⟨h.past, h.sorted, h.asleep⟩
  | begin ready lasts =>
    exact ⟨(h.push rfl).1, (h.push rfl).2,
      h.sleep (Nat.lt_add_of_pos_right (Nat.pos_of_ne_zero lasts)) _⟩
  | @brief i crashes rest ready =>
    have hstarted : Timed { s with world := s.world.push (.start i s.now) } :=
      ⟨(h.push rfl).1, (h.push rfl).2, h.asleep⟩
    exact ⟨(hstarted.push rfl).1, (hstarted.push rfl).2, h.asleep⟩
  | finish ready => exact ⟨(h.push rfl).1, (h.push rfl).2, h.asleep⟩
  | @wake time ready least =>
    have hleast := List.min?_eq_some_iff.mp least
    have hlater : s.now ≤ time := by
      obtain ⟨x, hx, rfl⟩ := List.mem_map.mp hleast.1
      exact (h.asleep x hx).le
    refine ⟨fun e he => (h.past e he).trans hlater, h.sorted, fun x hx => ?_⟩
    obtain ⟨hmem, hne⟩ := List.mem_filter.mp hx
    have hne : x.1 ≠ time := by simpa using hne
    exact Nat.lt_of_le_of_ne (hleast.2 x.1 (List.mem_map_of_mem hmem)) hne.symm

/-- Once all actions have started the clock does not go on beyond their ends. -/
def Prompt (w : Workload) (s : TrialState) : Prop :=
  s.world.starts.length = w.count →
    s.now = 0 ∨ ∃ x ∈ s.world.starts, s.now ≤ (w.endOf x).time

theorem Prompt.step (hl : s.Lined w p) (hb : s.Balanced w) (h : s.Prompt w) (hs : TrialStep s s') :
    s'.Prompt w := by
  unfold Prompt at h ⊢
  cases hs with
  | leave ready idle => simpa using h
  | park ready busy prompt => exact h
  | pause ready pause => exact h
  | launch ready pause permits => exact h
  | @begin i hold crashes rest ready lasts =>
    intro _
    refine Or.inr ⟨(i, s.now), by simp, Nat.le_add_right _ _⟩
  | @brief i crashes rest ready =>
    intro _
    refine Or.inr ⟨(i, s.now), by simp, Nat.le_add_right _ _⟩
  | finish ready => simpa using h
  | @wake time ready least =>
    intro hall
    obtain ⟨x, hx, rfl⟩ := List.mem_map.mp (List.min?_mem least)
    rcases hl.asleep x hx with ⟨i, crashes, hjob⟩ | ⟨q, more, -, -, hremains⟩
    · have hdue : ⟨i, x.1, crashes⟩ ∈ s.world.ends ++ s.due := by
        refine List.mem_append_right _ (List.mem_append_right _ ?_)
        exact List.mem_filterMap.mpr ⟨x, hx, by rw [hjob]; rfl⟩
      obtain ⟨start, hstart, heq⟩ := List.mem_map.mp (hb.subset hdue)
      refine Or.inr ⟨start, hstart, ?_⟩
      rw [heq]
    · -- a starter that has something left to start does not wake up any more
      have hbelow := hremains.head.1
      unfold launched at hbelow
      change s.world.starts.length = w.count at hall
      omega

/-- The last thing that happens is that the tuning set returns. -/
def Closing (s : TrialState) : Prop :=
  s.lane.closed = true → s.world.events.getLast? = some (.leave s.now)

theorem closing_step (ho : s.timeline.Orderly) (hs : TrialStep s s') : s'.Closing := by
  unfold Closing
  have hopen : s.lane.closed ≠ true := by simp [hs.open ho]
  cases hs with
  | leave ready idle => simp
  | park ready busy prompt => exact fun hc => (hopen hc).elim
  | pause ready pause => exact fun hc => (hopen hc).elim
  | launch ready pause permits => exact fun hc => (hopen hc).elim
  | begin ready lasts => exact fun hc => (hopen hc).elim
  | brief ready => exact fun hc => (hopen hc).elim
  | finish ready => exact fun hc => (hopen hc).elim
  | wake ready least => exact fun hc => (hopen hc).elim

end Solo

theorem Workload.Reached.timed (h : w.Reached p s) : s.Timed := by
  induction h with
  | begin => exact ⟨nofun, .nil, nofun⟩
  | step before next step ih => exact ih.step step

theorem Workload.Reached.prompt (hpermits : p.permits ≠ some 0) (h : w.Reached p s) :
    s.Prompt w := by
  induction h with
  | begin => exact fun _ => Or.inl rfl
  | step before next step ih =>
    exact ih.step (before.lined hpermits) (before.balanced hpermits) step

theorem Workload.Reached.closing (hpermits : p.permits ≠ some 0) (h : w.Reached p s) :
    s.Closing := by
  cases h with
  | begin => exact nofun
  | step before next step => exact Solo.closing_step (before.orderly hpermits) step

/-! ## Whole trials -/

/-- The actions start once each, in the order of the list, at times that do not decrease; each ends
once, so long after its start as it takes, in the way in which it does; and when the last one has
ended the tuning set returns, with none in flight. -/
structure Trial.Complete (w : Workload) (r : Trial) : Prop where
  starts : r.log.starts.map (·.1) = List.range w.count
  ordered : r.log.starts.Pairwise fun x y => x.2 ≤ y.2
  ends : r.log.ends.Perm (r.log.starts.map w.endOf)
  finished : r.finished = ((r.log.starts.map fun x => (w.endOf x).time).max?).getD 0
  left : r.log.events.getLast? = some (.leave r.finished)
  settled : r.log.inFlight = 0

theorem eq_max?_getD {times : List Nat} {now : Nat} (past : ∀ time ∈ times, time ≤ now)
    (prompt : now = 0 ∨ ∃ time ∈ times, now ≤ time) : now = times.max?.getD 0 := by
  apply Nat.le_antisymm
  · rcases prompt with rfl | ⟨time, hmem, hle⟩
    · exact Nat.zero_le _
    · exact hle.trans (List.le_max?_getD_of_mem hmem)
  · cases hmax : times.max? with
    | none => exact Nat.zero_le _
    | some time => exact past time (List.max?_mem hmax)

def TrialJob.index : TrialJob → Nat
  | .starting i _ _ => i
  | .ending i _ => i

/-- A job of a trial waits once, until its end. -/
def TrialJob.size : TrialJob → Nat
  | .starting _ _ _ => 1
  | .ending _ _ => 0

theorem sized_trialCrew : trialCrew.Sized TrialJob.size := by
  intro now i job log d next h
  cases job with
  | starting index hold crashes =>
    simp only [trialCrew] at h
    split at h
    · cases h
    · cases h
      exact Nat.zero_lt_one
  | ending => cases h

namespace Workload

/-- When the lane of a trial has ended the trial is complete. -/
theorem Reached.complete (hpermits : p.permits ≠ some 0) (h : w.Reached p s)
    (hc : s.lane.closed = true) : Trial.Complete w ⟨s.world, s.now⟩ := by
  have hl := h.lined hpermits
  have hnone := Solo.tokens_of_closed (h.orderly hpermits) hc
  simp only [Solo.tokens_timeline, List.append_eq_nil_iff, List.map_eq_nil_iff] at hnone
  have hstarts : s.world.starts.map (·.1) = List.range w.count := by
    have horder := congrArg (List.map TrialJob.index) hl.order
    simpa [hnone.1, hl.closed hc, job, TrialJob.index, Function.comp_def] using horder
  have hends : s.world.ends.Perm (s.world.starts.map w.endOf) := by
    simpa [Solo.Balanced, Solo.due, hnone] using h.balanced hpermits
  have hfinished : s.now = ((s.world.starts.map fun x => (w.endOf x).time).max?).getD 0 := by
    have hlength : s.world.starts.length = w.count := by
      simpa using congrArg List.length hstarts
    refine eq_max?_getD (fun time htime => ?_) ?_
    · obtain ⟨x, hx, rfl⟩ := List.mem_map.mp htime
      have hend := hends.symm.subset (List.mem_map_of_mem hx)
      exact h.timed.ends_le _ hend
    · rcases h.prompt hpermits hlength with hzero | ⟨x, hx, hle⟩
      · exact Or.inl hzero
      · exact Or.inr ⟨_, List.mem_map_of_mem hx, hle⟩
  refine ⟨hstarts, ?_, hends, hfinished, h.closing hpermits hc, ?_⟩
  · refine h.timed.sorted.filterMap _ fun e e' hle x hx y hy => ?_
    rw [TrialEvent.time_of_start? hx, TrialEvent.time_of_start? hy]
    exact hle
  · simp [TrialLog.inFlight, hends.length_eq]

variable (hoffset : ∀ i, p.offset i = 0) (hpermits : p.permits ≠ some 0)

include hoffset hpermits

theorem Reached.steps (h : w.Reached p s) (fuel : Nat) :
    ∃ s' : TrialState, w.Reached p s' ∧ s.timeline.steps trialCrew fuel = s'.timeline := by
  induction fuel generalizing s with
  | zero => exact ⟨s, h, rfl⟩
  | succ fuel ih =>
    unfold Timeline.steps
    cases hs : s.timeline.step trialCrew with
    | none => exact ⟨s, h, rfl⟩
    | some t' =>
      obtain ⟨s', rfl, hstep⟩ := exists_trialStep (h.orderly hpermits)
        ((h.lined hpermits).offset_eq_zero hoffset) hs
      exact ih (h.step hs hstep)

/-- A trial takes all its actions to their end. -/
theorem exists_reached (w : Workload) :
    ∃ s : TrialState, w.Reached p s ∧ s.lane.closed = true ∧
      trialCrew.run (fun _ => 1) 0 (w.lanes p) {} = s.timeline := by
  obtain ⟨s, hs, heq⟩ := (Reached.begin (w := w) (p := p)).steps hoffset hpermits
    (workOf (fun _ => 1) (w.lanes p))
  rw [w.timeline_begin] at heq
  have hfuel : (Timeline.start 0 (w.lanes p) ({} : TrialLog)).work TrialJob.size ≤
      workOf (fun _ => 1) (w.lanes p) :=
    (Timeline.work_start_le _ 0 (w.lanes p) ({} : TrialLog)).trans
      (workOf_mono (fun job => by cases job <;> simp [TrialJob.size]) (w.lanes p))
  have hstep : ∀ {t t' : Timeline TrialLog TrialJob}, t.Orderly → True →
      t.step trialCrew = some t' → True ∧ t'.work TrialJob.size < t.work TrialJob.size :=
    fun ho _ hs => ⟨trivial, (Timeline.step_move ho hs).work_lt sized_trialCrew⟩
  obtain ⟨pool, -, hp, ho, hnone⟩ := Timeline.steps_pooled hstep hfuel
    (Timeline.orderly_start 0 (w.permits_lanes hpermits) ({} : TrialLog)) trivial
    (Timeline.pooled_start 0 (w.lanes p) ({} : TrialLog))
  have hended := ho.ended hnone hp
  refine ⟨s, hs, ?_, heq⟩
  -- an open lane would still be in the pool
  by_contra hopen
  have hmem : 0 ∈ pool.lanes := by
    rw [hp.lanes, heq]
    exact ⟨s.lane, rfl, by simpa using hopen⟩
  rw [hended] at hmem
  cases hmem

end Workload

/-- A load under which no action begins with a wait of its own takes a trial to its end. -/
theorem Load.exists_trial {load : Load} {draws : Draws} {p : Pacing} (w : Workload)
    (hp : load.pacing draws w.count = some p) (hoffset : ∀ i, p.offset i = 0)
    (hpermits : p.permits ≠ some 0) :
    ∃ s : TrialState, w.Reached p s ∧ s.lane.closed = true ∧
      load.trial draws w.holds w.crashes = some ⟨s.world, s.now⟩ := by
  obtain ⟨s, hs, hc, hrun⟩ := w.exists_reached hoffset hpermits
  refine ⟨s, hs, hc, ?_⟩
  unfold Load.trial
  rw [show load.pacing draws w.holds.length = some p from hp, Option.map_some]
  change some (Trial.mk (trialCrew.run (fun _ => 1) 0 (w.lanes p) {}).world
    (trialCrew.run (fun _ => 1) 0 (w.lanes p) {}).now) = _
  rw [hrun]
  rfl

end ReplicaLoad

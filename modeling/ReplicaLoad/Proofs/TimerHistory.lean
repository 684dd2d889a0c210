-- Histories of timers. A timer is called with any parameters, at times that
-- never go back. Of each label it holds two times: the start of its open
-- interval, and the length of its last one. What they tell of the calls is an
-- invariant, and so what a timer returns can be read off its history.
import Mathlib.Data.List.Induction
import ReplicaLoad.Measurement.Builtin
import ReplicaLoad.Proofs.DictEntries
import ReplicaLoad.Proofs.MeasurementHistory

namespace ReplicaLoad

/-! ## One call -/

theorem textParam_eq_ok_iff {params : Dict} {name s : String} :
    textParam params name = .ok s ↔ params.textAt? name = some s := by
  unfold textParam Dict.textAt?
  rcases params.get? name with _ | v
  · simp
  · cases v <;> simp [Value.text?]

theorem textAt?_of_error {params : Dict} {name : String} {e : MeasurementError}
    (h : textParam params name = .error e) : params.textAt? name = none := by
  rw [Option.eq_none_iff_forall_ne_some]
  intro s hs
  rw [textParam_eq_ok_iff.mpr hs] at h
  cases h

/-- Parameters that ask for an action on a label. -/
def Asks (params : Dict) (action label : String) : Prop :=
  params.textAt? "action" = some action ∧ params.textAt? "label" = some label

instance (params : Dict) (action label : String) : Decidable (Asks params action label) :=
  inferInstanceAs (Decidable (_ ∧ _))

theorem not_asks_of_error {params : Dict} {name : String} {e : MeasurementError}
    (h : textParam params name = .error e) (hname : name ∈ ["action", "label"])
    (action label : String) : ¬ Asks params action label := by
  rintro ⟨haction, hlabel⟩
  have hnone := textAt?_of_error h
  rcases List.mem_pair.mp hname with rfl | rfl
  · simp [hnone] at haction
  · simp [hnone] at hlabel

theorem Asks.action_eq {params : Dict} {action action' label label' : String}
    (h : Asks params action label) (h' : Asks params action' label') : action = action' :=
  Option.some.inj (h.1.symm.trans h'.1)

theorem Asks.label_eq {params : Dict} {action action' label label' : String}
    (h : Asks params action label) (h' : Asks params action' label') : label = label' :=
  Option.some.inj (h.2.symm.trans h'.2)

/-- What a timer holds of one label. -/
structure LabelTimes where
  /-- The start of the interval that is open. -/
  opened : Option Millis
  /-- The length of the last interval. -/
  lasted : Option Millis

/-- What a call makes of the times of a label. -/
def LabelTimes.next (label : String) (c : Millis × Dict) (times : LabelTimes) : LabelTimes :=
  if Asks c.2 "start" label then { times with opened := some c.1 }
  else if Asks c.2 "stop" label then
    match times.opened with
    | none => times
    | some start => ⟨none, some (c.1 - start)⟩
  else times

namespace LabelTimes

variable {label : String} {c : Millis × Dict}

theorem next_of_start (h : Asks c.2 "start" label) (times : LabelTimes) :
    times.next label c = { times with opened := some c.1 } := if_pos h

theorem next_of_stop {times : LabelTimes} {start : Millis} (h : Asks c.2 "stop" label)
    (ho : times.opened = some start) : times.next label c = ⟨none, some (c.1 - start)⟩ := by
  have hstart : ¬ Asks c.2 "start" label := fun hs => absurd (h.action_eq hs) (by decide)
  simp [next, hstart, h, ho]

theorem next_of_not {times : LabelTimes} (hstart : ¬ Asks c.2 "start" label)
    (hstop : Asks c.2 "stop" label → times.opened = none) : times.next label c = times := by
  by_cases h : Asks c.2 "stop" label
  · simp [next, hstart, h, hstop h]
  · simp [next, hstart, h]

end LabelTimes

namespace TimerState

def times (t : TimerState) (label : String) : LabelTimes :=
  ⟨t.running.get? label, t.finished.get? label⟩

/-- The timer that a call leaves behind. -/
def next (t : TimerState) (c : Millis × Dict) : TimerState :=
  match t.call c.1 c.2 with
  | .ok (t, _) => t
  | .error _ => t

/-- How a call ends, by what it asks for. -/
inductive Effect (t : TimerState) (now : Millis) (params : Dict) :
    Except MeasurementError (TimerState × List Summary) → Prop
  | start {label : String} (asks : Asks params "start" label) :
      Effect t now params (.ok ({ t with running := t.running.put label now }, []))
  | stop {label : String} {start : Millis} (asks : Asks params "stop" label)
      (opened : t.running.get? label = some start) :
      Effect t now params (.ok (⟨t.running.erase label, t.finished.put label (now - start)⟩, []))
  | gather (asks : params.textAt? "action" = some "gather") :
      Effect t now params (.ok (t, [t.summary]))
  | fail (e : MeasurementError) (no_start : ∀ label, ¬ Asks params "start" label)
      (not_opened : ∀ label, Asks params "stop" label → t.running.get? label = none)
      (no_gather : params.textAt? "action" ≠ some "gather") : Effect t now params (.error e)

theorem effect_of_error {t : TimerState} {now : Millis} {params : Dict} {name : String}
    {e : MeasurementError} (h : textParam params name = .error e)
    (hname : name ∈ ["action", "label"]) (hg : params.textAt? "action" ≠ some "gather") :
    t.Effect now params (.error e) :=
  .fail e (not_asks_of_error h hname "start")
    (fun label ha => absurd ha (not_asks_of_error h hname "stop" label)) hg

theorem effect_call (t : TimerState) (now : Millis) (params : Dict) :
    t.Effect now params (t.call now params) := by
  unfold call
  split
  · next e he => exact effect_of_error he (by simp) (by simp [textAt?_of_error he])
  · next haction =>
    have haction := textParam_eq_ok_iff.mp haction
    split
    · next e he => exact effect_of_error he (by simp) (by simp [haction])
    · next label hlabel => exact .start ⟨haction, textParam_eq_ok_iff.mp hlabel⟩
  · next haction =>
    have haction := textParam_eq_ok_iff.mp haction
    split
    · next e he => exact effect_of_error he (by simp) (by simp [haction])
    · next label hlabel =>
      have hasks : Asks params "stop" label := ⟨haction, textParam_eq_ok_iff.mp hlabel⟩
      split
      · next hrunning =>
        refine .fail _ (fun l h => absurd (hasks.action_eq h) (by decide)) (fun l h => ?_)
          (by simp [haction])
        rwa [← hasks.label_eq h]
      · next start hrunning => exact .stop hasks hrunning
  · next haction => exact .gather (textParam_eq_ok_iff.mp haction)
  · next other hstart hstop hgather haction =>
    have haction := textParam_eq_ok_iff.mp haction
    refine .fail _ (fun l h => ?_) (fun l h => ?_) fun h => ?_
    · exact absurd (Option.some.inj (haction.symm.trans h.1)) fun h => hstart (h ▸ rfl)
    · exact absurd (Option.some.inj (haction.symm.trans h.1)) fun h => hstop (h ▸ rfl)
    · exact absurd (Option.some.inj (haction.symm.trans h)) fun h => hgather (h ▸ rfl)

/-- A call changes the times of its own label only, and as the label has it. -/
theorem times_next (t : TimerState) (c : Millis × Dict) (label : String) :
    (t.next c).times label = (t.times label).next label c := by
  have heffect := t.effect_call c.1 c.2
  unfold next
  generalize t.call c.1 c.2 = r at heffect
  cases heffect with
  | @start own asks =>
    by_cases hl : own = label
    · subst hl
      rw [LabelTimes.next_of_start asks]
      simp [times, Table.get?_put]
    · rw [LabelTimes.next_of_not (fun h => hl (asks.label_eq h)) fun h => absurd (asks.label_eq h) hl]
      simp [times, Table.get?_put, hl]
  | @stop own start asks opened =>
    by_cases hl : own = label
    · subst hl
      rw [LabelTimes.next_of_stop asks opened]
      simp [times, Table.get?_put, Table.get?_erase]
    · rw [LabelTimes.next_of_not (fun h => hl (asks.label_eq h)) fun h => absurd (asks.label_eq h) hl]
      simp [times, Table.get?_put, Table.get?_erase, hl]
  | gather asks =>
    have hask : ∀ action, action ≠ "gather" → ¬ Asks c.2 action label :=
      fun action hne h => hne (Option.some.inj (h.1.symm.trans asks))
    exact (LabelTimes.next_of_not (hask "start" (by decide))
      fun h => absurd h (hask "stop" (by decide))).symm
  | fail e no_start not_opened no_gather =>
    exact (LabelTimes.next_of_not (no_start label) (not_opened label)).symm

end TimerState

/-! ## The calls of a history -/

namespace Timer

/-- A fresh timer that some calls have been made on. -/
def after (history : List (Millis × Dict)) : TimerState := history.foldl TimerState.next {}

/-- How a call ends on a timer that has seen some others. -/
def outcome (before : List (Millis × Dict)) (c : Millis × Dict) : CallOutcome :=
  (timerMethod.call c.1 c.2 (timerMethod.fed before)).outcome

def Succeeds (before : List (Millis × Dict)) (c : Millis × Dict) : Prop :=
  ∃ list, outcome before c = .summaries list

/-- The call at an index is an action on a label, made at a time, that succeeds. -/
def Done (history : List (Millis × Dict)) (action label : String) (k : Nat) (time : Millis) :
    Prop :=
  ∃ params, history[k]? = some (time, params) ∧ Asks params action label ∧
    Succeeds (history.take k) (time, params)

/-- The last action on a label that succeeds. -/
def LastDone (history : List (Millis × Dict)) (action label : String) (k : Nat) (time : Millis) :
    Prop :=
  Done history action label k time ∧ ∀ j t, Done history action label j t → j ≤ k

/-- The seconds of the last interval of each label. -/
def durations (history : List (Millis × Dict)) : Dict :=
  Dict.ofList ((after history).finished.entries.map fun (label, ms) => (label, .float (secondsOf ms)))

variable {history : List (Millis × Dict)} {c : Millis × Dict} {action label : String}
  {k : Nat} {time : Millis}

theorem after_append (history : List (Millis × Dict)) (c : Millis × Dict) :
    after (history ++ [c]) = (after history).next c := by
  simp [after, List.foldl_append]

theorem call_timer (now : Millis) (params : Dict) (t : TimerState) :
    timerMethod.call now params (.timer t) = match t.call now params with
      | .ok (t, summaries) => { state := .timer t, outcome := .summaries summaries }
      | .error e => { state := .timer t, outcome := .error e } := rfl

theorem state_call_timer (c : Millis × Dict) (t : TimerState) :
    (timerMethod.call c.1 c.2 (.timer t)).state = .timer (t.next c) := by
  rw [call_timer, TimerState.next]
  split
  · rfl
  · rfl

theorem fed_timer (history : List (Millis × Dict)) :
    timerMethod.fed history = .timer (after history) := by
  induction history using List.reverseRecOn with
  | nil => rfl
  | append_singleton history c ih => rw [Method.fed_append, ih, state_call_timer, after_append]

/-- The outcome of a call of a timer that ends with some result. -/
def answer : Except MeasurementError (TimerState × List Summary) → CallOutcome
  | .ok (_, summaries) => .summaries summaries
  | .error e => .error e

theorem outcome_eq (history : List (Millis × Dict)) (c : Millis × Dict) :
    outcome history c = answer ((after history).call c.1 c.2) := by
  rw [outcome, fed_timer, call_timer]
  split
  · next h => rw [h, answer]
  · next h => rw [h, answer]

theorem exists_effect (history : List (Millis × Dict)) (c : Millis × Dict) :
    ∃ r, (after history).Effect c.1 c.2 r ∧ outcome history c = answer r :=
  ⟨_, (after history).effect_call c.1 c.2, outcome_eq history c⟩

/-! ### What succeeds -/

theorem succeeds_of_start (h : Asks c.2 "start" label) : Succeeds history c := by
  obtain ⟨r, heffect, hr⟩ := exists_effect history c
  cases heffect with
  | start => exact ⟨_, hr⟩
  | stop => exact ⟨_, hr⟩
  | gather => exact ⟨_, hr⟩
  | fail e no_start => exact absurd h (no_start label)

theorem succeeds_stop_iff (h : Asks c.2 "stop" label) :
    Succeeds history c ↔ ((after history).times label).opened ≠ none := by
  obtain ⟨r, heffect, hr⟩ := exists_effect history c
  cases heffect with
  | start asks => exact absurd (asks.action_eq h) (by decide)
  | stop asks opened =>
    cases asks.label_eq h
    simp [Succeeds, hr, answer, TimerState.times, opened]
  | gather asks => exact absurd (Option.some.inj (asks.symm.trans h.1)) (by decide)
  | fail e no_start not_opened =>
    simp [Succeeds, hr, answer, TimerState.times, not_opened label h]

theorem Done.lt_length (h : Done history action label k time) : k < history.length := by
  obtain ⟨params, hk, -⟩ := h
  exact (List.getElem?_eq_some_iff.mp hk).1

theorem done_append : Done (history ++ [c]) action label k time ↔
    Done history action label k time ∨
      k = history.length ∧ time = c.1 ∧ Asks c.2 action label ∧ Succeeds history c := by
  rcases lt_trichotomy k history.length with hk | rfl | hk
  · simp only [Done, List.getElem?_append_left hk, List.take_append_of_le_length hk.le, hk.ne,
      false_and, or_false]
  · have hnot : ¬ Done history action label history.length time := fun h => h.lt_length.false
    simp only [hnot, false_or, true_and]
    constructor
    · rintro ⟨params, hc, hasks, hs⟩
      rw [List.getElem?_concat_length] at hc
      cases Option.some.inj hc
      exact ⟨rfl, hasks, by simpa using hs⟩
    · rintro ⟨rfl, hasks, hs⟩
      exact ⟨c.2, List.getElem?_concat_length, hasks, by simpa using hs⟩
  · have hnot : ∀ h : List (Millis × Dict), h.length ≤ k → ¬ Done h action label k time :=
      fun h hle hd => absurd hd.lt_length hle.not_gt
    simp [hnot history hk.le, hnot (history ++ [c]) (by simpa using Nat.succ_le_of_lt hk), hk.ne']

/-- A call that is not this action, or that fails, does not count. -/
theorem done_append_of_not (h : ¬ (Asks c.2 action label ∧ Succeeds history c)) :
    Done (history ++ [c]) action label k time ↔ Done history action label k time := by
  rw [done_append]
  exact or_iff_left fun hc => h hc.2.2

theorem lastDone_append_of_not (h : ¬ (Asks c.2 action label ∧ Succeeds history c)) :
    LastDone (history ++ [c]) action label k time ↔ LastDone history action label k time := by
  simp only [LastDone, done_append_of_not h]

theorem lastDone_append_self (h : Asks c.2 action label) (hs : Succeeds history c) :
    LastDone (history ++ [c]) action label history.length c.1 := by
  refine ⟨done_append.mpr (Or.inr ⟨rfl, rfl, h, hs⟩), fun j t hj => ?_⟩
  have hlt := hj.lt_length
  rw [List.length_append, List.length_singleton] at hlt
  omega

theorem LastDone.unique {k' : Nat} {time' : Millis} (h : LastDone history action label k time)
    (h' : LastDone history action label k' time') : k = k' ∧ time = time' := by
  have hk : k = k' := le_antisymm (h'.2 k time h.1) (h.2 k' time' h'.1)
  subst hk
  obtain ⟨⟨params, hp, -⟩, -⟩ := h
  obtain ⟨⟨params', hp', -⟩, -⟩ := h'
  exact ⟨rfl, congrArg Prod.fst (Option.some.inj (hp.symm.trans hp'))⟩

/-! ### What the times of a label tell -/

/-- The times of a label tell of the calls of a history. -/
structure Tells (history : List (Millis × Dict)) (label : String) (times : LabelTimes) : Prop where
  opened : ∀ start, times.opened = some start → ∃ i, LastDone history "start" label i start ∧
    ∀ k stop, Done history "stop" label k stop → k < i
  closed : times.opened = none → ∀ i start, Done history "start" label i start →
    ∃ k stop, Done history "stop" label k stop ∧ i < k
  lasted : ∀ length, times.lasted = some length → ∃ k stop i start,
    LastDone history "stop" label k stop ∧ LastDone (history.take k) "start" label i start ∧
      length = stop - start
  never : times.lasted = none → ∀ k stop, ¬ Done history "stop" label k stop

theorem LastDone.take_append {i : Nat} {start : Millis} (hk : k < history.length) :
    LastDone ((history ++ [c]).take k) action label i start ↔
      LastDone (history.take k) action label i start := by
  rw [List.take_append_of_le_length hk.le]

/-- What has been said about the last interval stays true until the next one ends. -/
theorem Tells.lasted_append {times : LabelTimes} (h : Tells history label times)
    (hc : ¬ (Asks c.2 "stop" label ∧ Succeeds history c)) (length : Millis)
    (hl : times.lasted = some length) : ∃ k stop i start,
      LastDone (history ++ [c]) "stop" label k stop ∧
        LastDone ((history ++ [c]).take k) "start" label i start ∧ length = stop - start := by
  obtain ⟨k, stop, i, start, hstop, hstart, hlength⟩ := h.lasted length hl
  exact ⟨k, stop, i, start, (lastDone_append_of_not hc).mpr hstop,
    (LastDone.take_append hstop.1.lt_length).mpr hstart, hlength⟩

theorem Tells.start {times : LabelTimes} (h : Tells history label times)
    (ha : Asks c.2 "start" label) :
    Tells (history ++ [c]) label { times with opened := some c.1 } := by
  have hnot : ¬ (Asks c.2 "stop" label ∧ Succeeds history c) :=
    fun hc => absurd (ha.action_eq hc.1) (by decide)
  refine ⟨?_, nofun, h.lasted_append hnot, fun hn k stop hd => ?_⟩
  · rintro start ⟨⟩
    exact ⟨history.length, lastDone_append_self ha (succeeds_of_start ha),
      fun k stop hd => ((done_append_of_not hnot).mp hd).lt_length⟩
  · exact h.never hn k stop ((done_append_of_not hnot).mp hd)

theorem Tells.stop {times : LabelTimes} {start : Millis} (h : Tells history label times)
    (ha : Asks c.2 "stop" label) (hs : Succeeds history c) (ho : times.opened = some start) :
    Tells (history ++ [c]) label ⟨none, some (c.1 - start)⟩ := by
  have hnot : ¬ (Asks c.2 "start" label ∧ Succeeds history c) :=
    fun hc => absurd (ha.action_eq hc.1) (by decide)
  have hlast := lastDone_append_self ha hs
  refine ⟨nofun, fun _ i start hd => ?_, ?_, nofun⟩
  · exact ⟨history.length, c.1, hlast.1, ((done_append_of_not hnot).mp hd).lt_length⟩
  · rintro length ⟨⟩
    -- the interval that ends is the one that the last start has opened
    obtain ⟨i, hi, -⟩ := h.opened start ho
    exact ⟨history.length, c.1, i, start, hlast, by simpa using hi, rfl⟩

theorem Tells.other {times : LabelTimes} (h : Tells history label times)
    (hstart : ¬ (Asks c.2 "start" label ∧ Succeeds history c))
    (hstop : ¬ (Asks c.2 "stop" label ∧ Succeeds history c)) :
    Tells (history ++ [c]) label times := by
  refine ⟨fun start ho => ?_, fun hn i start hd => ?_, h.lasted_append hstop, fun hn k stop hd => ?_⟩
  · obtain ⟨i, hi, hafter⟩ := h.opened start ho
    exact ⟨i, (lastDone_append_of_not hstart).mpr hi,
      fun k stop hd => hafter k stop ((done_append_of_not hstop).mp hd)⟩
  · obtain ⟨k, stop, hk, hlt⟩ := h.closed hn i start ((done_append_of_not hstart).mp hd)
    exact ⟨k, stop, (done_append_of_not hstop).mpr hk, hlt⟩
  · exact h.never hn k stop ((done_append_of_not hstop).mp hd)

theorem tells (history : List (Millis × Dict)) (label : String) :
    Tells history label ((after history).times label) := by
  induction history using List.reverseRecOn with
  | nil => exact ⟨nofun, fun _ i start hd => absurd hd.lt_length (Nat.not_lt_zero i), nofun,
      fun _ k stop hd => absurd hd.lt_length (Nat.not_lt_zero k)⟩
  | append_singleton history c ih =>
    rw [after_append, TimerState.times_next]
    by_cases hstart : Asks c.2 "start" label
    · rw [LabelTimes.next_of_start hstart]
      exact ih.start hstart
    · have hnot : ¬ (Asks c.2 "start" label ∧ Succeeds history c) := fun hc => hstart hc.1
      by_cases hstop : Asks c.2 "stop" label ∧ Succeeds history c
      · have hne := (succeeds_stop_iff hstop.1).mp hstop.2
        obtain ⟨start, ho⟩ := Option.ne_none_iff_exists'.mp hne
        rw [LabelTimes.next_of_stop hstop.1 ho]
        exact ih.stop hstop.1 hstop.2 ho
      · -- a stop that fails has found the interval closed
        rw [LabelTimes.next_of_not hstart fun ha => by
          by_contra hne
          exact hstop ⟨ha, (succeeds_stop_iff ha).mpr hne⟩]
        exact ih.other hnot hstop

/-! ### One label among others -/

theorem get?_durations (history : List (Millis × Dict)) (label : String) :
    (durations history).get? label =
      ((after history).times label).lasted.map fun ms => .float (secondsOf ms) := by
  have hkeys : (((after history).finished.entries.map fun e =>
      (e.1, Value.float (secondsOf e.2))).map (·.1)).Nodup := by
    rw [List.map_map]
    exact (after history).finished.distinct
  exact (Dict.get?_ofList hkeys label).trans
    (Table.find?_map (fun ms => Value.float (secondsOf ms)) label (after history).finished.entries)

/-- The length of a label is that of its last interval. -/
theorem LastDone.duration (h : LastDone history "stop" label k time) : ∃ i start,
    LastDone (history.take k) "start" label i start ∧
      (durations history).get? label = some (.float (secondsOf (time - start))) := by
  cases hl : ((after history).times label).lasted with
  | none => exact absurd h.1 ((tells history label).never hl k time)
  | some length =>
    obtain ⟨k', stop, i, start, hstop, hstart, hlength⟩ := (tells history label).lasted length hl
    obtain ⟨rfl, rfl⟩ := h.unique hstop
    exact ⟨i, start, hstart, by rw [get?_durations, hl, Option.map_some, hlength]⟩

end Timer

end ReplicaLoad

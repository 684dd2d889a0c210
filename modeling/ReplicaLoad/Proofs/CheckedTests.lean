-- Tests that have passed the check. What the check of a test says about it, and
-- what a run can rely on for that reason: every phase has a namespace to work
-- in, and its tuning set can be selected, is the one that was declared under
-- the name, and paces the actions with durations that are not cut off. So the
-- run of a checked test never fails for a tuning set.
import Mathlib.Data.List.Nodup
import ReplicaLoad.Proofs.StepErrors
import ReplicaLoad.Proofs.TestErrors

namespace ReplicaLoad

/-! ## What the check accepts -/

structure Phase.Sound (declared : List String) (p : Phase) : Prop where
  range : ∀ r, p.range = some r → r.min ≤ r.max
  tuningSet : p.tuningSet ∈ declared
  bundle : ∀ o ∈ p.bundle, o.basename ≠ "" ∧ o.path ≠ ""

structure Step.Sound (declared : List String) (s : Step) : Prop where
  pure : s.phases = [] ∨ s.measurements = []
  phases : ∀ p ∈ s.phases, p.Sound declared
  measurements : ∀ m ∈ s.measurements, m.method ≠ ""

structure LoadTest.Sound (t : LoadTest) : Prop where
  name : Text.trim t.name ≠ ""
  loads : ∀ ts ∈ t.tuningSets, ∃ load, ts.load = .ok load
  distinct : (t.tuningSets.map (·.name)).Nodup
  steps : ∀ s ∈ t.steps, s.Sound (t.tuningSets.map (·.name))

theorem checkTuningSets_eq_ok {seen : List String} {sets : List TuningSet} :
    checkTuningSets seen sets = .ok () ↔ (∀ ts ∈ sets, ∃ load, ts.load = .ok load) ∧
      (sets.map (·.name)).Nodup ∧ ∀ ts ∈ sets, ts.name ∉ seen := by
  induction sets generalizing seen with
  | nil => simp [checkTuningSets]
  | cons ts rest ih =>
    rw [checkTuningSets, List.map_cons, List.nodup_cons, List.forall_mem_cons, List.forall_mem_cons]
    cases hl : ts.load with
    | error d => simp
    | ok load =>
      by_cases hs : ts.name ∈ seen
      · simp [hs]
      · simp only [hs, if_false, ih, List.mem_cons, not_or, List.mem_map, not_exists, not_and]
        -- a later set differs from those before it, which are those seen so far and this one
        constructor
        · rintro ⟨hloads, hnodup, hnew⟩
          exact ⟨⟨⟨load, rfl⟩, hloads⟩, ⟨fun x hx => (hnew x hx).1, hnodup⟩, not_false,
            fun x hx => (hnew x hx).2⟩
        · rintro ⟨⟨-, hloads⟩, ⟨hne, hnodup⟩, -, hnew⟩
          exact ⟨hloads, hnodup, fun x hx => ⟨hne x hx, hnew x hx⟩⟩

theorem checkBundle_eq_ok {step : String} {bundle : List ObjectTemplate} :
    checkBundle step bundle = .ok () ↔ ∀ o ∈ bundle, o.basename ≠ "" ∧ o.path ≠ "" := by
  induction bundle with
  | nil => simp [checkBundle]
  | cons o rest ih =>
    unfold checkBundle
    by_cases hb : o.basename = ""
    · simp [hb]
    · by_cases hp : o.path = ""
      · simp [hp]
      · simp [hb, hp, ih]

theorem checkPhase_eq_ok {declared : List String} {step : String} {p : Phase} :
    checkPhase declared step p = .ok () ↔ p.Sound declared := by
  -- behind the range the check is the same with and without one
  have hrest (hrange : ∀ r, p.range = some r → r.min ≤ r.max) :
      (if p.tuningSet ∉ declared then .error (.unknownTuningSet step p.tuningSet)
        else checkBundle step p.bundle) = Except.ok () ↔ p.Sound declared := by
    by_cases ht : p.tuningSet ∈ declared
    · simp only [ht, not_true_eq_false, if_false, checkBundle_eq_ok]
      exact ⟨fun hb => ⟨hrange, ht, hb⟩, Phase.Sound.bundle⟩
    · simp only [ht, not_false_eq_true, if_true, reduceCtorEq, false_iff]
      exact fun h => ht h.tuningSet
  unfold checkPhase
  cases hr : p.range with
  | none => exact hrest (by simp [hr])
  | some r =>
    dsimp only
    split
    · rename_i hlt
      simp only [reduceCtorEq, false_iff]
      exact fun h => absurd (h.range r hr) (UInt32.not_le.mpr hlt)
    · rename_i hle
      refine hrest fun r' hr' => ?_
      cases hr.symm.trans hr'
      exact UInt32.not_lt.mp hle

theorem checkPhases_eq_ok {declared : List String} {step : String} {phases : List Phase} :
    checkPhases declared step phases = .ok () ↔ ∀ p ∈ phases, p.Sound declared := by
  induction phases with
  | nil => simp [checkPhases]
  | cons p rest ih =>
    have hp : checkPhase declared step p = .ok () ↔ p.Sound declared := checkPhase_eq_ok
    rw [List.forall_mem_cons, ← ih, ← hp, checkPhases]
    cases checkPhase declared step p with
    | error d => simp
    | ok _ => simp

theorem checkMeasurements_eq_ok {step : String} {calls : List MeasurementCall} :
    checkMeasurements step calls = .ok () ↔ ∀ m ∈ calls, m.method ≠ "" := by
  induction calls with
  | nil => simp [checkMeasurements]
  | cons m rest ih =>
    unfold checkMeasurements
    by_cases hm : m.method = ""
    · simp [hm]
    · simp [hm, ih]

theorem checkStep_eq_ok {declared : List String} {index : Nat} {s : Step} :
    checkStep declared index s = .ok () ↔ s.Sound declared := by
  unfold checkStep
  dsimp only
  split
  · rename_i hmixed
    simp only [reduceCtorEq, false_iff]
    intro h
    rcases h.pure with hp | hm
    · simp [hp] at hmixed
    · simp [hm] at hmixed
  · rename_i hpure
    have hpure : s.phases = [] ∨ s.measurements = [] := by
      simpa [Classical.or_iff_not_imp_left] using hpure
    split
    · rename_i d hp
      simp only [reduceCtorEq, false_iff]
      intro h
      rw [checkPhases_eq_ok.mpr h.phases] at hp
      cases hp
    · rename_i hp
      rw [checkMeasurements_eq_ok]
      exact ⟨fun hm => ⟨hpure, checkPhases_eq_ok.mp hp, hm⟩, Step.Sound.measurements⟩

theorem checkSteps_eq_ok {declared : List String} {index : Nat} {steps : List Step} :
    checkSteps declared index steps = .ok () ↔ ∀ s ∈ steps, s.Sound declared := by
  induction steps generalizing index with
  | nil => simp [checkSteps]
  | cons s rest ih =>
    have hs : checkStep declared index s = .ok () ↔ s.Sound declared := checkStep_eq_ok
    have hrest : checkSteps declared (index + 1) rest = .ok () ↔ _ := ih
    rw [List.forall_mem_cons, ← hrest, ← hs, checkSteps]
    cases checkStep declared index s with
    | error d => simp
    | ok _ => simp

/-- The check accepts exactly the sound tests. -/
theorem LoadTest.check_eq_ok {t : LoadTest} : t.check = .ok () ↔ t.Sound := by
  unfold check
  split
  · rename_i hname
    simp only [reduceCtorEq, false_iff]
    exact fun h => h.name hname
  · rename_i hname
    split
    · rename_i d hsets
      simp only [reduceCtorEq, false_iff]
      intro h
      rw [checkTuningSets_eq_ok.mpr ⟨h.loads, h.distinct, fun _ _ => List.not_mem_nil⟩] at hsets
      cases hsets
    · rename_i hsets
      obtain ⟨hloads, hdistinct, -⟩ := checkTuningSets_eq_ok.mp hsets
      rw [checkSteps_eq_ok]
      exact ⟨fun hsteps => ⟨hname, hloads, hdistinct, hsteps⟩, LoadTest.Sound.steps⟩

/-! ## Tuning sets -/

/-- Where names are distinct a declared name is that of one tuning set. -/
theorem exists_filter_eq_singleton {sets : List TuningSet} {name : String}
    (h : (sets.map (·.name)).Nodup) (hn : name ∈ sets.map (·.name)) :
    ∃ ts ∈ sets, ts.name = name ∧ sets.filter (·.name = name) = [ts] := by
  induction sets with
  | nil => cases hn
  | cons ts rest ih =>
    obtain ⟨hnew, hrest⟩ := List.nodup_cons.mp h
    by_cases hname : ts.name = name
    · have hnone : rest.filter (·.name = name) = [] := by
        refine List.filter_eq_nil_iff.mpr fun x hx hxn => hnew (List.mem_map.mpr ⟨x, hx, ?_⟩)
        exact (of_decide_eq_true hxn).trans hname.symm
      exact ⟨ts, List.mem_cons_self, hname, by simp [hname, hnone]⟩
    · rcases List.mem_cons.mp hn with he | hn
      · exact absurd he.symm hname
      · obtain ⟨found, hf, hfn, hfilter⟩ := ih hrest hn
        exact ⟨found, List.mem_cons_of_mem _ hf, hfn, by simp [hname, hfilter]⟩

/-- The only tuning set of a name is the one that is selected under it. -/
theorem TuningSets.select_of_filter {sets : List TuningSet} {name : String} {ts : TuningSet}
    {load : Load} (h : sets.filter (·.name = name) = [ts]) (hl : ts.load = .ok load) :
    (TuningSets.ofList sets).select name = .ok load := by
  have hget : (TuningSets.ofList sets).declared.get? name = some ts := by
    unfold TuningSets.ofList
    rw [Table.get?_ofList, List.filter_map]
    change (List.map _ (sets.filter (·.name = name))).getLast?.map _ = _
    rw [h]
    rfl
  unfold TuningSets.select
  rw [hget]
  dsimp only
  rw [hl]

theorem TuningSet.inRange_of_load {ts : TuningSet} {load : Load} (h : ts.load = .ok load) :
    load.inRange = true := by
  unfold TuningSet.load at h
  split at h
  · split at h
    · rename_i hr
      cases h
      exact hr
    · cases h
  · cases h
  · cases h

/-- A gap that is a duration is not cut off. -/
theorem gapOfSeconds_of_representableRate {rate span : Float}
    (h : representableRate rate span = true) :
    Nanos.ofSeconds? (span / rate) = some (gapOfSeconds (span / rate)) := by
  obtain ⟨d, hd⟩ := Option.isSome_iff_exists.mp (Bool.and_eq_true_iff.mp h).2
  simp [gapOfSeconds, hd]

/-- A phase of a checked test can select the tuning set that it names. -/
theorem LoadTest.Sound.selects {t : LoadTest} (h : t.Sound) {s : Step} (hs : s ∈ t.steps)
    {p : Phase} (hp : p ∈ s.phases) :
    ∃ ts load, t.tuningSets.filter (·.name = p.tuningSet) = [ts] ∧ ts.load = .ok load ∧
      (TuningSets.ofList t.tuningSets).select p.tuningSet = .ok load := by
  obtain ⟨ts, hts, -, hfilter⟩ :=
    exists_filter_eq_singleton h.distinct (((h.steps s hs).phases p hp).tuningSet)
  obtain ⟨load, hload⟩ := h.loads ts hts
  exact ⟨ts, load, hfilter, hload, TuningSets.select_of_filter hfilter hload⟩

/-- A range with its ends in order has a namespace. -/
theorem namespaceList_ne_nil {range : Option NamespaceRange}
    (h : ∀ r, range = some r → r.min ≤ r.max) (scope : String) :
    namespaceList scope range ≠ [] := by
  cases range with
  | none => simp [namespaceList]
  | some r =>
    have hle := UInt32.le_iff_toNat_le.mp (h r rfl)
    simp only [namespaceList, ne_eq, List.map_eq_nil_iff, List.range'_eq_nil_iff]
    omega

/-! ## Runs -/

theorem World.exists_of_mem_stepErrors {w : World} {env : Environment} {now : Millis}
    {steps : List Step} {found : ErrorList} (h : found ∈ w.stepErrors env now steps) :
    ∃ (w' : World) (now' : Millis) (s : Step), s ∈ steps ∧ found = (w'.runStep env now' s).1 := by
  induction steps generalizing w now with
  | nil => cases h
  | cons s rest ih =>
    rcases List.mem_cons.mp h with rfl | h
    · exact ⟨w, now, s, List.mem_cons_self, rfl⟩
    · split at h
      · cases h
      · obtain ⟨w', now', s', hs, rfl⟩ := ih h
        exact ⟨w', now', s', List.mem_cons_of_mem _ hs, rfl⟩

/-- A summary fails in being printed or in being written. -/
theorem mem_recorded {folder : Option String} {test : String} {stamp : Nat → String}
    {files : FileTree} {index : Nat} {summaries : List Summary} {e : RunError}
    (h : e ∈ recorded folder test stamp files index summaries) :
    (∃ name problem, e = .summaryPrint name problem) ∨ ∃ path, e = .summaryWrite path := by
  induction summaries generalizing files index with
  | nil => cases h
  | cons summary rest ih =>
    unfold recorded at h
    split at h
    · rcases List.mem_append.mp h with h | h
      · unfold SummaryRun.write at h
        split at h
        · cases h
        · dsimp only at h
          split at h
          · cases h
          · exact .inr ⟨_, List.mem_singleton.mp h⟩
      · exact ih h
    · rcases List.mem_cons.mp h with rfl | h
      · exact .inl ⟨_, _, rfl⟩
      · exact ih h
    · cases h

section Test

variable {w : World} {env : Environment} {stamp : Nat → String} {files : FileTree} {now : Millis}
  {t : LoadTest}

/-- A test that does not begin says why, with an error of the setup. -/
theorem World.isSetup_of_refusal {e : RunError}
    (h : e ∈ (w.testRecord env stamp files now t).refusal) : e.isSetup = true := by
  unfold testRecord at h
  split at h
  · rw [List.mem_singleton.mp h]
    rfl
  · rw [List.mem_singleton.mp h]
    rfl
  · split at h
    · rw [List.mem_singleton.mp h]
      rfl
    · cases h

theorem World.exists_of_mem_steps {found : ErrorList}
    (h : found ∈ (w.testRecord env stamp files now t).steps) :
    ∃ (w' : World) (now' : Millis) (s : Step), s ∈ t.steps ∧
      found = (w'.runStep { env with tuningSets := .ofList t.tuningSets } now' s).1 := by
  unfold testRecord at h
  split at h
  · cases h
  · cases h
  · split at h
    · cases h
    · exact exists_of_mem_stepErrors h

theorem World.mem_summaries {e : RunError}
    (h : e ∈ (w.testRecord env stamp files now t).summaries) :
    (∃ name problem, e = .summaryPrint name problem) ∨ ∃ path, e = .summaryWrite path := by
  unfold testRecord at h
  split at h
  · cases h
  · cases h
  · split at h
    · cases h
    · exact mem_recorded h

/-- The run of a sound test has no error of a tuning set, as no phase of it has one. -/
theorem World.tuningSet_notMem_runTest (ht : t.Sound) (problem : TuningSetError) :
    .tuningSet problem ∉ (w.runTest env stamp files now t).errors.errors := by
  intro h
  -- why the test has not begun, its steps, its summaries, and a crash
  rw [w.errors_runTest, RunRecord.returned] at h
  rcases List.mem_append.mp h with h | h
  · rcases List.mem_append.mp h with h | h
    · rcases List.mem_append.mp h with h | h
      · cases isSetup_of_refusal h
      · obtain ⟨found, hf, he⟩ := List.mem_flatMap.mp h
        obtain ⟨w', now', s, hs, rfl⟩ := exists_of_mem_steps hf
        rcases blames_of_runStep he with hwork | ⟨p, hp, hr⟩
        · cases hwork
        · rcases Environment.ready_error hr with ⟨problem', -, hselect⟩ | ⟨_, _, he⟩
          · obtain ⟨ts, load, -, -, hload⟩ := ht.selects hs hp
            cases hload.symm.trans hselect
          · cases he
    · split at h
      · cases h
      · rcases mem_summaries h with ⟨_, _, he⟩ | ⟨_, he⟩
        · cases he
        · cases he
  · obtain ⟨reason, -, he⟩ := List.mem_map.mp h
    cases he

end Test

/-- In a test that passes the check every phase has a namespace, whatever the scope, and selects the
one tuning set that is declared under its name, whose gaps are durations that need not be cut off.
So no run of the test has an error of a tuning set. -/
theorem checked_phases_begin (t : LoadTest) (h : t.check = .ok ()) :
    (∀ s ∈ t.steps, ∀ p ∈ s.phases,
      (∀ scope, namespaceList scope p.range ≠ []) ∧
      ∃ ts load, t.tuningSets.filter (·.name = p.tuningSet) = [ts] ∧ ts.load = .ok load ∧
        (TuningSets.ofList t.tuningSets).select p.tuningSet = .ok load ∧
        (∀ rate, load = .qps rate → Nanos.ofSeconds? (1.0 / rate) = some (rateInterval rate)) ∧
        (∀ rate, load = .randomized rate →
          Nanos.ofSeconds? (2.0 / rate) = some (gapBound rate))) ∧
    ∀ (w : World) (env : Environment) (stamp : Nat → String) (files : FileTree) (now : Millis)
      (problem : TuningSetError),
      .tuningSet problem ∉ (w.runTest env stamp files now t).errors.errors := by
  have hsound := LoadTest.check_eq_ok.mp h
  refine ⟨fun s hs p hp => ?_, fun w env stamp files now => World.tuningSet_notMem_runTest hsound⟩
  obtain ⟨ts, load, hfilter, hload, hselect⟩ := hsound.selects hs hp
  have hrange := TuningSet.inRange_of_load hload
  refine ⟨namespaceList_ne_nil ((hsound.steps s hs).phases p hp).range, ts, load, hfilter, hload,
    hselect, ?_, ?_⟩
  · rintro rate rfl
    exact gapOfSeconds_of_representableRate hrange
  · rintro rate rfl
    exact gapOfSeconds_of_representableRate hrange

theorem checked_phases_begin_sampleTest :
    (sampleTest 1).check = .ok () ∧
    (∀ s ∈ (sampleTest 1).steps, ∀ p ∈ s.phases, ∀ scope, namespaceList scope p.range ≠ []) ∧
    ∀ problem, .tuningSet problem ∉
      (sampleWorld.runTest sampleEnvironment toString {} 0 (sampleTest 1)).errors.errors := by
  have hcheck : (sampleTest 1).check = .ok () := by decide +kernel
  obtain ⟨hphases, hruns⟩ := checked_phases_begin (sampleTest 1) hcheck
  exact ⟨hcheck, fun s hs p hp => (hphases s hs p hp).1,
    hruns sampleWorld sampleEnvironment toString {} 0⟩

end ReplicaLoad

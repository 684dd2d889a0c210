-- The first violation. All that is wrong with a test, in the order in which a
-- reader meets it: the name, the tuning sets one after another, then the steps,
-- of which each is looked through from its phases to its measurements. The
-- check stops early, at each level of its loops; what it reports is the first
-- violation of the whole list, and it accepts a test exactly if the list is
-- empty.
import ReplicaLoad.Proofs.CheckedTests

namespace ReplicaLoad

/-! ## Violations -/

/-- A load with a positive rate, burst size or parallelism, and with gaps that are durations. -/
def Load.Realizable : Load → Prop
  | .qps rate => rate > 0.0 ∧ (Nanos.ofSeconds? (1.0 / rate)).isSome
  | .randomized rate => rate > 0.0 ∧ (Nanos.ofSeconds? (2.0 / rate)).isSome
  | .stepped bursts => 0 < bursts.burstSize
  | .parallelismLimited limit => 0 < limit
  | .timeLimited _ => True
  | .randomizedTimeLimited _ => True

theorem Load.inRange_iff {load : Load} : load.inRange = true ↔ load.Realizable := by
  cases load <;> simp [inRange, Realizable, representableRate]

/-- A tuning set has exactly one load, and that is one that can be kept to. -/
def TuningSet.loadViolations (t : TuningSet) : List Defect :=
  match t.loads with
  | [] => [.noLoad t.name]
  | [load] => if load.inRange then [] else [.loadOutOfRange t.name]
  | loads => [.severalLoads t.name loads.length]

/-- Beside its own load, a tuning set has a name that none before it has. -/
def TuningSet.violations (before : List TuningSet) (t : TuningSet) : List Defect :=
  t.loadViolations ++
    if t.name ∈ before.map (·.name) then [.duplicateTuningSet t.name] else []

def NamespaceRange.violations (step : String) (r : NamespaceRange) : List Defect :=
  if r.max < r.min then [.emptyRange step r.min.toNat r.max.toNat] else []

def ObjectTemplate.violations (step : String) (o : ObjectTemplate) : List Defect :=
  if o.basename = "" ∨ o.path = "" then [.incompleteObject step] else []

def Phase.violations (declared : List String) (step : String) (p : Phase) : List Defect :=
  p.range.toList.flatMap (·.violations step) ++
    (if p.tuningSet ∈ declared then [] else [.unknownTuningSet step p.tuningSet]) ++
    p.bundle.flatMap (·.violations step)

def MeasurementCall.violations (step : String) (m : MeasurementCall) : List Defect :=
  if m.method = "" then [.missingMethod step] else []

/-- A step is called by its name, or by its position if it has none. -/
def Step.violations (declared : List String) (index : Nat) (s : Step) : List Defect :=
  let step := s.name.getD s!"#{index}"
  (if s.phases.isEmpty ∨ s.measurements.isEmpty then [] else [.mixedStep step]) ++
    s.phases.flatMap (·.violations declared step) ++ s.measurements.flatMap (·.violations step)

/-- All that is wrong with a test. -/
def LoadTest.violations (t : LoadTest) : List Defect :=
  (if Text.trim t.name = "" then [.emptyName] else []) ++
    (t.tuningSets.zipIdx.flatMap fun (ts, i) => ts.violations (t.tuningSets.take i)) ++
    t.steps.zipIdx.flatMap fun (s, i) => s.violations (t.tuningSets.map (·.name)) i

/-! ## The check as a search for the first of them -/

/-- The verdict on something with some violations. -/
def verdict : List Defect → Except Defect Unit
  | [] => .ok ()
  | d :: _ => .error d

theorem verdict_append (ds more : List Defect) :
    verdict (ds ++ more) = match verdict ds with
      | .error d => .error d
      | .ok () => verdict more := by
  cases ds <;> rfl

theorem verdict_eq_ok {ds : List Defect} : verdict ds = .ok () ↔ ds = [] := by
  cases ds <;> simp [verdict]

theorem verdict_eq_error {ds : List Defect} {d : Defect} :
    verdict ds = .error d ↔ ds.head? = some d := by
  cases ds <;> simp [verdict]

/-- A tuning set stands for its only load. -/
theorem TuningSet.load_eq_ok {t : TuningSet} {load : Load} :
    t.load = .ok load ↔ t.loads = [load] ∧ load.Realizable := by
  rw [← Load.inRange_iff, TuningSet.load]
  rcases t.loads with _ | ⟨only, _ | ⟨second, rest⟩⟩
  · simp
  · by_cases h : only.inRange = true
    · simp only [h, if_true, Except.ok.injEq, List.cons.injEq, and_true]
      constructor
      · rintro rfl
        exact ⟨rfl, h⟩
      · exact And.left
    · simp only [h, Bool.false_eq_true, if_false, reduceCtorEq, false_iff, List.cons.injEq, and_true]
      rintro ⟨rfl, hrange⟩
      exact h hrange
  · simp

theorem TuningSet.load_eq (t : TuningSet) :
    t.load.map (fun _ => ()) = verdict t.loadViolations := by
  unfold loadViolations load
  rcases t.loads with _ | ⟨only, _ | ⟨second, rest⟩⟩
  · rfl
  · by_cases h : only.inRange = true
    · simp [h, Except.map, verdict]
    · simp [h, Except.map, verdict]
  · rfl

theorem checkBundle_eq (step : String) (bundle : List ObjectTemplate) :
    checkBundle step bundle = verdict (bundle.flatMap (·.violations step)) := by
  induction bundle with
  | nil => rfl
  | cons o rest ih =>
    rw [List.flatMap_cons, verdict_append, ← ih, checkBundle, ObjectTemplate.violations]
    by_cases h : o.basename = "" ∨ o.path = ""
    · simp [h, verdict]
    · simp [h, verdict]

theorem checkPhase_eq (declared : List String) (step : String) (p : Phase) :
    checkPhase declared step p = verdict (p.violations declared step) := by
  unfold checkPhase Phase.violations
  rw [List.append_assoc, verdict_append, verdict_append, ← checkBundle_eq]
  cases p.range with
  | none =>
    by_cases ht : p.tuningSet ∈ declared
    · simp [ht, verdict]
    · simp [ht, verdict]
  | some r =>
    by_cases hr : r.max < r.min
    · simp [hr, verdict, NamespaceRange.violations]
    · by_cases ht : p.tuningSet ∈ declared
      · simp [hr, ht, verdict, NamespaceRange.violations]
      · simp [hr, ht, verdict, NamespaceRange.violations]

theorem checkPhases_eq (declared : List String) (step : String) (phases : List Phase) :
    checkPhases declared step phases = verdict (phases.flatMap (·.violations declared step)) := by
  induction phases with
  | nil => rfl
  | cons p rest ih =>
    rw [List.flatMap_cons, verdict_append, ← ih, ← checkPhase_eq]
    rfl

theorem checkMeasurements_eq (step : String) (calls : List MeasurementCall) :
    checkMeasurements step calls = verdict (calls.flatMap (·.violations step)) := by
  induction calls with
  | nil => rfl
  | cons m rest ih =>
    rw [List.flatMap_cons, verdict_append, ← ih, checkMeasurements, MeasurementCall.violations]
    by_cases h : m.method = ""
    · simp [h, verdict]
    · simp [h, verdict]

theorem checkStep_eq (declared : List String) (index : Nat) (s : Step) :
    checkStep declared index s = verdict (s.violations declared index) := by
  unfold checkStep Step.violations
  dsimp only
  rw [List.append_assoc, verdict_append, verdict_append, ← checkPhases_eq, ← checkMeasurements_eq]
  by_cases h : s.phases.isEmpty ∨ s.measurements.isEmpty
  · rw [if_pos h, if_neg (by simpa [Classical.or_iff_not_imp_left] using h)]
    rfl
  · rw [if_neg h, if_pos (by simpa using h)]
    rfl

theorem checkSteps_eq (declared : List String) (index : Nat) (steps : List Step) :
    checkSteps declared index steps =
      verdict ((steps.zipIdx index).flatMap fun (s, i) => s.violations declared i) := by
  induction steps generalizing index with
  | nil => rfl
  | cons s rest ih =>
    rw [List.zipIdx_cons, List.flatMap_cons, verdict_append, ← ih, ← checkStep_eq]
    rfl

/-- The names that the check has seen are those of the tuning sets before. -/
theorem checkTuningSets_eq (seen : List String) (before sets : List TuningSet)
    (h : ∀ name, name ∈ seen ↔ name ∈ before.map (·.name)) :
    checkTuningSets seen sets = verdict ((sets.zipIdx before.length).flatMap fun (ts, i) =>
      ts.violations ((before ++ sets).take i)) := by
  induction sets generalizing seen before with
  | nil => rfl
  | cons ts rest ih =>
    have hnext : ∀ name, name ∈ ts.name :: seen ↔ name ∈ (before ++ [ts]).map (·.name) := by
      intro name
      simp [h name, or_comm]
    have htail := ih (ts.name :: seen) (before ++ [ts]) hnext
    rw [List.append_assoc, List.singleton_append, List.length_append, List.length_singleton] at htail
    rw [List.zipIdx_cons, List.flatMap_cons, verdict_append, ← htail, checkTuningSets]
    dsimp only
    rw [List.take_left, TuningSet.violations, verdict_append, ← TuningSet.load_eq]
    cases hl : ts.load with
    | error d => rfl
    | ok load =>
      by_cases hs : ts.name ∈ seen
      · rw [if_pos hs, if_pos ((h _).mp hs)]
        rfl
      · rw [if_neg hs, if_neg fun hb => hs ((h _).mpr hb)]
        rfl

theorem LoadTest.check_eq (t : LoadTest) : t.check = verdict t.violations := by
  unfold check violations
  rw [List.append_assoc, verdict_append, verdict_append, ← checkSteps_eq]
  have hsets := checkTuningSets_eq [] [] t.tuningSets (by simp)
  rw [List.length_nil, List.nil_append] at hsets
  rw [← hsets]
  by_cases h : Text.trim t.name = ""
  · simp [h, verdict]
  · rw [if_neg h, if_neg h]
    rfl

/-- The check accepts exactly the sound tests, in which every tuning set has one load and that can be
kept to; these are the tests without a violation. Of any other test it reports the first one. -/
theorem first_violation_reported (t : LoadTest) :
    (t.check = .ok () ↔ t.Sound) ∧ (t.Sound ↔ t.violations = []) ∧
    (∀ d, t.check = .error d ↔ t.violations.head? = some d) ∧
    ∀ (ts : TuningSet) (load : Load),
      ts.load = .ok load ↔ ts.loads = [load] ∧ load.Realizable := by
  refine ⟨LoadTest.check_eq_ok, ?_, fun d => ?_, fun ts load => TuningSet.load_eq_ok⟩
  · rw [← LoadTest.check_eq_ok, LoadTest.check_eq, verdict_eq_ok]
  · rw [LoadTest.check_eq, verdict_eq_error]

/-- A tuning set without a load under a name that is taken, and a phase with an empty range that
names no declared tuning set. -/
example :
    let phase : Phase := ⟨some ⟨2, 1, none⟩, 1, "b", []⟩
    let test : LoadTest :=
      { name := "t"
        tuningSets := [{ name := "a", parallelismLimit := some 1 }, { name := "a" }]
        steps := [{ phases := [phase] }] }
    test.violations =
      [.noLoad "a", .duplicateTuningSet "a", .emptyRange "#0" 2 1, .unknownTuningSet "#0" "b"] := by
  decide +kernel

end ReplicaLoad

-- Tests that are written and read again. A load test that is written as a value
-- is read back as it was, with every optional part that it has and with none
-- that it has not, exactly if all its rates are finite. So such tests can be
-- told apart by what is written of them.
import ReplicaLoad.LoadTest.ValueForm

namespace ReplicaLoad

open Value

/-! ## Fields -/

namespace Reader

theorem find_nil (key : String) : find ([] : Dict) key = none := rfl

theorem find_cons (k key : String) (v : Value) (fs : Dict) :
    find ((k, v) :: fs) key = if k = key then some v else find fs key := by
  by_cases h : k = key
  · simp [find, h]
  · simp [find, h]

theorem find_append (fs gs : Dict) (key : String) :
    find (fs ++ gs) key = (find fs key).or (find gs key) := by
  unfold find
  rw [List.find?_append]
  cases fs.find? (·.1 = key) with
  | none => rfl
  | some e => rfl

/-- An optional entry is found under its own key, and only if it is there. -/
theorem find_entry? {α : Type} (k key : String) (value : Option α) (encode : α → Value) :
    find ( entry? k value encode) key = if k = key then value.map encode else none := by
  cases value with
  | none => simp [ entry?, find_nil]
  | some a => simp [ entry?, find_cons, find_nil]

section

variable {α : Type} {fs : Dict} {key : String} {read : Value → Option α}

theorem required_of_find {v : Value} (h : find fs key = some v) :
    required fs key read = read v := by
  rw [required, h]
  rfl

theorem orElse_of_find {v : Value} (h : find fs key = some v) (absent : α) :
    orElse fs key absent read = read v := by
  rw [orElse, h]

variable {encode : α → Value}

/-- What is absent stays absent, and what is there is read as it was written. -/
theorem maybe_of_find {value : Option α} (h : find fs key = value.map encode)
    (hnull : ∀ a, (encode a).isNull = false) (hread : ∀ a, read (encode a) = some a) :
    reader.maybe fs key read = some value := by
  unfold maybe
  rw [h]
  cases value with
  | none => rfl
  | some a => simp [reader, hnull, hread]

/-- A list is read back exactly if each of its items is. -/
theorem list_map_iff (items : List α) :
    reader.list read (.list (items.map encode)) = some items ↔
      ∀ a ∈ items, read (encode a) = some a := by
  unfold list
  simp only [reader, Option.bind_some]
  induction items with
  | nil => simp
  | cons a rest ih =>
    rw [List.map_cons, List.mapM_cons]
    cases hread : read (encode a) with
    | none => simp [hread]
    | some b =>
      cases hrest : (rest.map encode).mapM read with
      | none =>
        rw [hrest] at ih
        simp [hread, ← ih]
      | some bs =>
        rw [hrest] at ih
        simp [hread, ← ih]

theorem list_map (h : ∀ a, read (encode a) = some a) (items : List α) :
    reader.list read (.list (items.map encode)) = some items :=
  (list_map_iff items).mpr fun a _ => h a

theorem fields_dict (names : List String) (d : Dict) : reader.fields names (.dict d) = some d := rfl

theorem text_text (s : String) : reader.text (.text s) = some s := rfl

theorem single_dict (name : String) (v : Value) :
    reader.single name read (.dict [(name, v)]) = read v := by
  have hfind : find [(name, v)] name = some v := by simp [find_cons]
  exact required_of_find hfind

end

/-! ## Numbers -/

theorem word32_ofWord32 (n : UInt32) : reader.word32 (ofWord32 n) = some n := by
  have hlt : n.toNat < twoTo 32 := n.toNat_lt
  simp [word32, reader, ofWord32, natBelow?, hlt]

theorem word64_ofWord64 (n : UInt64) : reader.word64 (ofWord64 n) = some n := by
  have hlt : n.toNat < twoTo 64 := n.toNat_lt
  simp [word64, reader, ofWord64, natBelow?, hlt]

end Reader

/-! ## Rates -/

/-- The rates of a tuning set that has any are finite. -/
structure TuningSet.FiniteRates (t : TuningSet) : Prop where
  qps : t.qps.all Decimal.isFinite = true
  averageQps : t.averageQps.all Decimal.isFinite = true

def LoadTest.FiniteRates (t : LoadTest) : Prop := ∀ s ∈ t.tuningSets, s.FiniteRates

namespace Reader

/-- A rate that is not finite is written as null, which is no number. -/
theorem number_ofRate (x : Float) :
    reader.number (ofRate x) = if Decimal.isFinite x then some x else none := by
  unfold ofRate
  by_cases h : Decimal.isFinite x = true
  · simp [h, reader]
  · simp [h, reader]

theorem maybe_rate {fs : Dict} {key name : String} {rate : Option Float}
    (h : find fs key = rate.map fun x => .dict [(name, ofRate x)]) :
    reader.maybe fs key (reader.single name reader.number) =
      if rate.all Decimal.isFinite then some rate else none := by
  unfold maybe
  rw [h]
  cases rate with
  | none => rfl
  | some x =>
    have hnull : reader.optional (.dict [(name, ofRate x)]) =
        some (some (.dict [(name, ofRate x)])) := rfl
    simp only [Option.map_some, hnull, single_dict, number_ofRate, Option.all_some]
    by_cases hx : Decimal.isFinite x = true
    · simp [hx]
    · simp [hx]

/-! ## Records -/

theorem bursts_encode (b : Bursts) : reader.bursts b.encode = some b := by
  simp [bursts, Bursts.encode, fields_dict, required, find_cons, word32_ofWord32, word64_ofWord64]

/-- What is written of a tuning set under each name. -/
theorem exists_fields_tuningSet (t : TuningSet) :
    ∃ fs, t.encode = .dict fs ∧
      find fs "name" = some (.text t.name) ∧
      find fs "qpsLoad" = t.qps.map (fun x => .dict [("qps", ofRate x)]) ∧
      find fs "randomizedLoad" = t.averageQps.map (fun x => .dict [("averageQps", ofRate x)]) ∧
      find fs "steppedLoad" = t.stepped.map Bursts.encode ∧
      find fs "timeLimitedLoad" =
        t.timeLimitMs.map (fun n => .dict [("timeLimitMs", ofWord64 n)]) ∧
      find fs "randomizedTimeLimitedLoad" =
        t.randomTimeLimitMs.map (fun n => .dict [("timeLimitMs", ofWord64 n)]) ∧
      find fs "parallelismLimitedLoad" =
        t.parallelismLimit.map (fun n => .dict [("parallelismLimit", ofWord32 n)]) := by
  refine ⟨_, rfl, ?_⟩
  simp [find_append, find_cons, find_entry?]

/-- A tuning set is read back exactly if its rates are finite. -/
theorem tuningSet_encode_iff (t : TuningSet) :
    reader.tuningSet t.encode = some t ↔ t.FiniteRates := by
  obtain ⟨fs, hfs, hname, hqps, haverage, hstepped, hlimit, hrandom, hparallel⟩ :=
    exists_fields_tuningSet t
  have hread : reader.tuningSet t.encode =
      if t.qps.all Decimal.isFinite ∧ t.averageQps.all Decimal.isFinite then some t else none := by
    have hlong (n : UInt64) :
        reader.single "timeLimitMs" reader.word64 (.dict [("timeLimitMs", ofWord64 n)]) = some n :=
      (single_dict _ _).trans (word64_ofWord64 n)
    have hcount (n : UInt32) : reader.single "parallelismLimit" reader.word32
        (.dict [("parallelismLimit", ofWord32 n)]) = some n :=
      (single_dict _ _).trans (word32_ofWord32 n)
    simp only [tuningSet, hfs, fields_dict, required_of_find hname, text_text, maybe_rate hqps,
      maybe_rate haverage, maybe_of_find hstepped (fun _ => rfl) bursts_encode,
      maybe_of_find hlimit (fun _ => rfl) hlong, maybe_of_find hrandom (fun _ => rfl) hlong,
      maybe_of_find hparallel (fun _ => rfl) hcount, Option.bind_eq_bind, Option.bind_some]
    by_cases hq : t.qps.all Decimal.isFinite = true
    · by_cases ha : t.averageQps.all Decimal.isFinite = true
      · simp [hq, ha]
      · simp [hq, ha]
    · simp [hq]
  rw [hread]
  constructor
  · intro h
    split at h
    · rename_i hfinite
      exact ⟨hfinite.1, hfinite.2⟩
    · cases h
  · intro h
    exact if_pos ⟨h.qps, h.averageQps⟩

theorem objectTemplate_encode (o : ObjectTemplate) :
    reader.objectTemplate o.encode = some o := by
  obtain ⟨fs, hfs, hbasename, hpath, hfill⟩ : ∃ fs, o.encode = .dict fs ∧
      find fs "basename" = some (.text o.basename) ∧
      find fs "objectTemplatePath" = some (.text o.path) ∧
      find fs "templateFillMap" = o.fillMap.map .dict := by
    refine ⟨_, rfl, ?_⟩
    simp [find_cons, find_entry?]
  have hdict (d : Dict) : reader.dict (.dict d) = some d := rfl
  simp [objectTemplate, hfs, fields_dict, required_of_find hbasename, required_of_find hpath,
    text_text, maybe_of_find hfill (fun _ => rfl) hdict]

theorem namespaceRange_encode (r : NamespaceRange) :
    reader.namespaceRange r.encode = some r := by
  obtain ⟨fs, hfs, hmin, hmax, hbasename⟩ : ∃ fs, r.encode = .dict fs ∧
      find fs "min" = some (ofWord32 r.min) ∧ find fs "max" = some (ofWord32 r.max) ∧
      find fs "basename" = r.basename.map .text := by
    refine ⟨_, rfl, ?_⟩
    simp [find_append, find_cons, find_entry?, find_nil]
  simp [namespaceRange, hfs, fields_dict, required_of_find hmin, required_of_find hmax,
    word32_ofWord32, maybe_of_find hbasename (fun _ => rfl) text_text]

theorem phase_encode (p : Phase) : reader.phase p.encode = some p := by
  obtain ⟨fs, hfs, hrange, hreplicas, htuning, hbundle⟩ : ∃ fs, p.encode = .dict fs ∧
      find fs "namespaceRange" = p.range.map NamespaceRange.encode ∧
      find fs "replicasPerNamespace" = some (ofWord32 p.replicas) ∧
      find fs "tuningSet" = some (.text p.tuningSet) ∧
      find fs "objectBundle" = some (.list (p.bundle.map ObjectTemplate.encode)) := by
    refine ⟨_, rfl, ?_⟩
    simp [find_append, find_cons, find_entry?, find_nil]
  simp [phase, hfs, fields_dict, maybe_of_find hrange (fun _ => rfl) namespaceRange_encode,
    required_of_find hreplicas, word32_ofWord32, required_of_find htuning, text_text,
    required_of_find hbundle, list_map objectTemplate_encode]

theorem measurementCall_encode (m : MeasurementCall) :
    reader.measurementCall m.encode = some m := by
  obtain ⟨fs, hfs, hmethod, hid, hparams⟩ : ∃ fs, m.encode = .dict fs ∧
      find fs "method" = some (.text m.method) ∧
      find fs "identifier" = some (.text m.identifier) ∧
      find fs "params" = some (.dict m.params) := by
    refine ⟨_, rfl, ?_⟩
    simp [find_cons]
  have hdict : reader.dict (.dict m.params) = some m.params := rfl
  simp [measurementCall, hfs, fields_dict, required_of_find hmethod, required_of_find hid,
    text_text, orElse_of_find hparams, hdict]

theorem step_encode (s : Step) : reader.step s.encode = some s := by
  obtain ⟨fs, hfs, hname, hphases, hmeasurements⟩ : ∃ fs, s.encode = .dict fs ∧
      find fs "name" = s.name.map .text ∧
      find fs "phases" = some (.list (s.phases.map Phase.encode)) ∧
      find fs "measurements" = some (.list (s.measurements.map MeasurementCall.encode)) := by
    refine ⟨_, rfl, ?_⟩
    simp [find_append, find_cons, find_entry?, find_nil]
  simp [step, hfs, fields_dict, maybe_of_find hname (fun _ => rfl) text_text,
    orElse_of_find hphases, list_map phase_encode, orElse_of_find hmeasurements,
    list_map measurementCall_encode]

end Reader

/-! ## Tests -/

open Reader

theorem LoadTest.decode_encode_iff (t : LoadTest) :
    LoadTest.decode reader t.encode = some t ↔ t.FiniteRates := by
  obtain ⟨fs, hfs, hname, hnamespaces, hsets, hsteps⟩ : ∃ fs, t.encode = .dict fs ∧
      find fs "name" = some (.text t.name) ∧
      find fs "automanagedNamespaces" = some (ofWord32 t.automanagedNamespaces) ∧
      find fs "tuningSets" = some (.list (t.tuningSets.map TuningSet.encode)) ∧
      find fs "steps" = some (.list (t.steps.map Step.encode)) := by
    refine ⟨_, rfl, ?_⟩
    simp [find_cons]
  -- everything but the tuning sets is read back in any case
  have hdecode : LoadTest.decode reader t.encode =
      (reader.list reader.tuningSet (.list (t.tuningSets.map TuningSet.encode))).map
        fun sets => { t with tuningSets := sets } := by
    simp only [LoadTest.decode, hfs, fields_dict, required_of_find hname, text_text,
      orElse_of_find hnamespaces, word32_ofWord32, orElse_of_find hsets, orElse_of_find hsteps,
      list_map step_encode, Option.bind_eq_bind, Option.bind_some]
    cases reader.list reader.tuningSet (.list (t.tuningSets.map TuningSet.encode)) with
    | none => rfl
    | some sets => rfl
  have hsame (sets : List TuningSet) : { t with tuningSets := sets } = t ↔ sets = t.tuningSets := by
    constructor
    · intro h
      rw [← h]
    · rintro rfl
      rfl
  rw [hdecode, Option.map_eq_some_iff]
  simp only [hsame, exists_eq_right]
  rw [list_map_iff]
  exact forall₂_congr fun s _ => tuningSet_encode_iff s

/-- A test is read back from what is written of it, with all its optional parts present or absent as
they were, exactly if its rates are finite. Two such tests that differ are written differently. -/
theorem encoded_tests_read (t : LoadTest) :
    (LoadTest.decode reader t.encode = some t ↔ t.FiniteRates) ∧
      ∀ t' : LoadTest, t.FiniteRates → t'.FiniteRates → t.encode = t'.encode → t = t' := by
  refine ⟨t.decode_encode_iff, ?_⟩
  intro t' h h' hencode
  have hread := t.decode_encode_iff.mpr h
  rw [hencode, t'.decode_encode_iff.mpr h'] at hread
  exact (Option.some.inj hread).symm

/-- A test with an object whose parameters are there but empty, and one without any. -/
def densityTest (fillMap : Option Dict) : LoadTest where
  name := "density"
  automanagedNamespaces := 2
  tuningSets := [{ name := "uniform", qps := some 10.0 }, { name := "bursts", stepped := some ⟨5, 250⟩ }]
  steps := [
    { name := some "start", measurements := [{ method := "Timer", identifier := "t" }] },
    { phases := [{
        range := some ⟨1, 2, none⟩, replicas := 3, tuningSet := "uniform"
        bundle := [{ basename := "web", path := "deployment.yaml", fillMap }] }] }]

theorem encoded_tests_read_densityTest :
    (densityTest (some [])).FiniteRates ∧ (densityTest none).FiniteRates ∧
      LoadTest.decode reader (densityTest (some [])).encode = some (densityTest (some [])) ∧
      (densityTest (some [])).encode ≠ (densityTest none).encode := by
  have hfinite (fillMap : Option Dict) : (densityTest fillMap).FiniteRates := by
    intro s hs
    simp only [densityTest, List.mem_cons, List.not_mem_nil, or_false] at hs
    rcases hs with rfl | rfl
    · exact ⟨by decide +kernel, rfl⟩
    · exact ⟨rfl, rfl⟩
  obtain ⟨hread, hinj⟩ := encoded_tests_read (densityTest (some []))
  refine ⟨hfinite _, hfinite _, hread.mpr (hfinite _), ?_⟩
  intro hencode
  have hsame := hinj (densityTest none) (hfinite _) (hfinite _) hencode
  simp [densityTest] at hsame

end ReplicaLoad

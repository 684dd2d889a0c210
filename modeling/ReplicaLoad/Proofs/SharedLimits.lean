-- Sharing a time limit. Actions that are spread over a time limit each get an
-- equal share of it as a pause. Their number counts in 32 bits for that. So the
-- shares fit into the limit as long as there are fewer actions than 32 bits can
-- count; from there on they are too long unless they are nothing at all, and
-- there are none when the 32 bits are zero. A phase can plan that many actions.
import ReplicaLoad.Proofs.OpenLoop
import ReplicaLoad.Proofs.ReplicaAddresses
import ReplicaLoad.Proofs.WantedCounts

namespace ReplicaLoad

/-! ## Shares by a number in 32 bits -/

/-- A number that does not fit in 32 bits is greater than what is left of it there, by more than any
32 bits can hold. -/
theorem le_of_twoTo_le {count : Nat} (h : twoTo 32 ≤ count) :
    twoTo 32 + count % twoTo 32 ≤ count := by
  have hdiv : 1 ≤ count / twoTo 32 := (Nat.one_le_div_iff (by decide)).mpr h
  calc twoTo 32 + count % twoTo 32
      ≤ twoTo 32 * (count / twoTo 32) + count % twoTo 32 :=
        Nat.add_le_add_right (Nat.le_mul_of_pos_right _ hdiv) _
    _ = count := Nat.div_add_mod count (twoTo 32)

/-- Shares by the last 32 bits of a number fit as often as the number says if it has no more bits,
or if they are nothing. -/
theorem shares_by_bits_fit_iff (limit : Nanos) {count : Nat} (h : count % twoTo 32 ≠ 0) :
    limit / (count % twoTo 32) * count ≤ limit ↔
      count < twoTo 32 ∨ limit < count % twoTo 32 := by
  rcases Nat.lt_or_ge count (twoTo 32) with hsmall | hlarge
  · rw [Nat.mod_eq_of_lt hsmall]
    exact iff_of_true (Nat.div_mul_le_self limit count) (Or.inl hsmall)
  · rw [or_iff_right (Nat.not_lt.mpr hlarge)]
    have hpos : 0 < count % twoTo 32 := Nat.pos_of_ne_zero h
    have hbits : count % twoTo 32 < twoTo 32 := Nat.mod_lt _ (by decide)
    have hcount := le_of_twoTo_le hlarge
    generalize count % twoTo 32 = bits at hpos hbits hcount
    constructor
    · intro hfits
      by_contra hle
      have hshare : 1 ≤ limit / bits := (Nat.one_le_div_iff hpos).mpr (Nat.not_lt.mp hle)
      -- what the shares leave of the limit is less than one of the many that are left
      have hover : limit < limit / bits * count :=
        calc limit < limit / bits * bits + bits := Nat.lt_div_mul_add hpos
          _ ≤ limit / bits * bits + limit / bits * twoTo 32 :=
            Nat.add_le_add_left (hbits.le.trans (Nat.le_mul_of_pos_left _ hshare)) _
          _ = limit / bits * (twoTo 32 + bits) := by rw [Nat.mul_add, Nat.add_comm]
          _ ≤ limit / bits * count := Nat.mul_le_mul_left _ hcount
      exact absurd hfits (Nat.not_le.mpr hover)
    · intro hlt
      rw [Nat.div_eq_of_lt hlt, Nat.zero_mul]
      exact Nat.zero_le limit

/-! ## Plans -/

/-- All indices below the target are applied where nothing has been reached. -/
theorem length_planNamespace_of_fresh (ns : String) {bundle : List (ObjectTemplate × Nat)}
    (hne : bundle ≠ []) (h : ∀ e ∈ bundle, e.2 = 0) (target : Nat) :
    (planNamespace ns bundle target).length = target := by
  obtain ⟨e, he⟩ := List.exists_mem_of_ne_nil _ hne
  have hfirst : firstApplied bundle target = 0 := by
    have hle : firstApplied bundle target ≤ e.2 := firstApplied_le he
    rw [h e he] at hle
    exact Nat.le_zero.mp hle
  have hgreatest : greatestCount bundle = 0 := by
    by_contra hpos
    obtain ⟨e, he, hlt⟩ := lt_greatestCount.mp (Nat.pos_of_ne_zero hpos)
    rw [h e he] at hlt
    exact Nat.lt_irrefl 0 hlt
  unfold planNamespace
  rw [if_neg (by simpa using hne), hfirst, hgreatest]
  simp [between]

/-- A phase that is the first one for its groups plans an action for every replica index of each of
its namespaces. -/
theorem length_plan_of_fresh (s : InstanceStore) (namespaces : List String)
    {bundle : List (ObjectTemplate × ReplicaGroup)} (hne : bundle ≠ [])
    (h : ∀ key ∈ groupKeys namespaces bundle, s.count key = 0) (target : Nat) :
    (s.plan bundle target namespaces).1.length = namespaces.length * target := by
  have hlength : ∀ ns ∈ namespaces,
      (planNamespace ns (bundle.map fun e => (e.1, s.count (ns, e.2))) target).length = target := by
    intro ns hns
    refine length_planNamespace_of_fresh ns (by simpa using hne) ?_ target
    intro e he
    obtain ⟨e', he', rfl⟩ := List.mem_map.mp he
    exact h _ (mem_groupKeys.mpr ⟨hns, List.mem_map_of_mem he'⟩)
  rw [InstanceStore.plan_actions, List.length_flatMap, List.map_congr_left hlength]
  simp

theorem length_plan_range_of_fresh (s : InstanceStore) (scope : String) (range : NamespaceRange)
    {bundle : List (ObjectTemplate × ReplicaGroup)} (hne : bundle ≠ [])
    (h : ∀ key ∈ groupKeys (namespaceList scope (some range)) bundle, s.count key = 0)
    (target : Nat) :
    (s.plan bundle target (namespaceList scope (some range))).1.length =
      (range.max.toNat + 1 - range.min.toNat) * target := by
  rw [length_plan_of_fresh s _ hne h, NamespaceRange.length_namespaceList]

/-! ## Trials -/

theorem Pacing.every_inj {gap gap' : Nanos} (h : every gap = every gap') : gap = gap' :=
  congrFun (congrArg Pacing.pause h) 1

section

variable (limit : UInt64) (draws : Draws) (w : Workload)

theorem Load.pacing_timeLimited (hcount : 0 < w.count) :
    (Load.timeLimited limit).pacing draws w.count =
      (spreadInterval? (Nanos.ofMillis limit.toNat) w.count).map .every := by
  simp only [Load.pacing, if_neg hcount.ne']

theorem Load.trial_eq_none_iff (load : Load) :
    load.trial draws w.holds w.crashes = none ↔ load.pacing draws w.count = none := by
  unfold Load.trial
  rw [Option.map_eq_none_iff]
  rfl

theorem Load.trial_timeLimited_eq_none_iff (hcount : 0 < w.count) :
    (Load.timeLimited limit).trial draws w.holds w.crashes = none ↔ w.count % twoTo 32 = 0 := by
  rw [Load.trial_eq_none_iff, Load.pacing_timeLimited limit draws w hcount, Option.map_eq_none_iff]
  unfold spreadInterval?
  by_cases h : w.count % twoTo 32 = 0
  · simp [h]
  · simp [h]

/-- Actions are spread over a time limit by a pause that fits into it as often as there are actions,
and all of them are run. -/
structure Trial.SharesLimit (r : Trial) (gap : Nanos) : Prop where
  pacing : (Load.timeLimited limit).pacing draws w.count = some (.every gap)
  fits : gap * w.count ≤ Nanos.ofMillis limit.toNat
  trial : (Load.timeLimited limit).trial draws w.holds w.crashes = some r
  complete : r.Complete w

/-- A time limit is shared among actions that start if and only if 32 bits can count them, or if the
limit has fewer nanoseconds than their last 32 bits say. They do not start at all if and only if
these bits are zero. -/
theorem limit_shared_iff (hcount : 0 < w.count) :
    ((∃ (r : Trial) (gap : Nanos), r.SharesLimit limit draws w gap) ↔
      w.count < twoTo 32 ∨ Nanos.ofMillis limit.toNat < w.count % twoTo 32) ∧
    ((Load.timeLimited limit).trial draws w.holds w.crashes = none ↔ w.count % twoTo 32 = 0) := by
  have hnone := Load.trial_timeLimited_eq_none_iff limit draws w hcount
  refine ⟨?_, hnone⟩
  by_cases hbits : w.count % twoTo 32 = 0
  · refine iff_of_false ?_ ?_
    · rintro ⟨r, gap, h⟩
      cases (hnone.mpr hbits).symm.trans h.trial
    · rintro (hsmall | hlt)
      · rw [Nat.mod_eq_of_lt hsmall] at hbits
        exact hcount.ne' hbits
      · rw [hbits] at hlt
        exact Nat.not_lt_zero _ hlt
  · have hpacing := Load.pacing_timeLimited limit draws w hcount
    rw [spreadInterval?, if_neg hbits, Option.map_some] at hpacing
    rw [← shares_by_bits_fit_iff _ hbits]
    constructor
    · rintro ⟨r, gap, h⟩
      rw [Pacing.every_inj (Option.some_inj.mp (hpacing.symm.trans h.pacing))]
      exact h.fits
    · intro hfits
      obtain ⟨r, htrial, hcomplete, -⟩ :=
        Load.exists_trial_onTime w hpacing (Pacing.starts_every _) (fun _ => rfl) rfl
      exact ⟨r, _, hpacing, hfits, htrial, hcomplete⟩

end

theorem limit_shared_iff_three :
    ((∃ (r : Trial) (gap : Nanos), r.SharesLimit 10 (fun _ => 0) ⟨[5, 0, 20], (· = 1)⟩ gap) ↔
      3 < twoTo 32 ∨ 10000000 < 3 % twoTo 32) ∧
    ((Load.timeLimited 10).trial (fun _ => 0) [5, 0, 20] (· = 1) = none ↔ 3 % twoTo 32 = 0) :=
  limit_shared_iff 10 (fun _ => 0) ⟨[5, 0, 20], (· = 1)⟩ (by decide)

/-- Two namespaces with half as many replicas each as 32 bits can count: the phase plans its actions,
and none of them starts. -/
theorem planned_actions_do_not_start :
    let actions := (InstanceStore.plan [(⟨"a", "a.yaml", none⟩, ⟨"a", "A", ""⟩)] 2147483648
      Table.empty (namespaceList "run" (some ⟨1, 2, none⟩))).1
    actions.length = twoTo 32 ∧
      (Load.timeLimited 1).trial (fun _ => 0) (actions.map fun _ => 0) = none := by
  intro actions
  have hlength : actions.length = twoTo 32 :=
    length_plan_range_of_fresh Table.empty "run" ⟨1, 2, none⟩ (List.cons_ne_nil _ _)
      (fun _ _ => rfl) 2147483648
  let w : Workload := ⟨actions.map fun _ => 0, fun _ => false⟩
  have hcount : w.count = twoTo 32 := List.length_map _ |>.trans hlength
  refine ⟨hlength, (Load.trial_timeLimited_eq_none_iff 1 (fun _ => 0) w ?_).mpr ?_⟩
  · rw [hcount]
    decide
  · rw [hcount]
    decide

end ReplicaLoad

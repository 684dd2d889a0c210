-- Plans entry by entry. The plan of a namespace counts over all indices that
-- some entry of the bundle has to gain or to lose. What it does for one entry
-- depends on the count of that entry alone: the other entries only decide which
-- actions there are, and each of these has something to do.
import ReplicaLoad.Proofs.PhasePlans

namespace ReplicaLoad

/-! ## Lists with places -/

section

variable {α β : Type} (f : α → Option β)

/-- What becomes of the entries of a list, each with the place of its entry. -/
def placed (as : List α) : List (Nat × β) :=
  as.zipIdx.filterMap fun (a, k) => (f a).map (k, ·)

variable {f}

theorem map_snd_placed (as : List α) : (placed f as).map (·.2) = as.filterMap f := by
  unfold placed
  conv_rhs => rw [← List.zipIdx_map_fst 0 as]
  rw [List.map_filterMap, List.filterMap_map]
  refine List.filterMap_congr fun x _ => ?_
  cases h : f x.1 <;> simp [h]

theorem mem_placed {as : List α} {k : Nat} {b : β} :
    (k, b) ∈ placed f as ↔ ∃ a, as[k]? = some a ∧ f a = some b := by
  unfold placed
  simp only [List.mem_filterMap, Prod.exists, List.mem_zipIdx_iff_getElem?, Option.map_eq_some_iff,
    Prod.mk.injEq]
  constructor
  · rintro ⟨a, j, ha, b, hb, rfl, rfl⟩
    exact ⟨a, ha, hb⟩
  · rintro ⟨a, ha, hb⟩
    exact ⟨a, k, ha, b, hb, rfl, rfl⟩

/-- The places come in order. -/
theorem pairwise_placed (as : List α) : (placed f as).Pairwise fun x y => x.1 < y.1 := by
  have hplaces : as.zipIdx.Pairwise fun x y => x.2 < y.2 := by
    rw [← List.pairwise_map (f := Prod.snd), List.zipIdx_map_snd]
    exact List.pairwise_lt_range'
  refine List.Pairwise.filterMap _ (fun x y hxy b hb b' hb' => ?_) hplaces
  obtain ⟨c, -, rfl⟩ := Option.map_eq_some_iff.mp hb
  obtain ⟨c', -, rfl⟩ := Option.map_eq_some_iff.mp hb'
  exact hxy

/-- At one place there is what becomes of the entry there. -/
theorem filter_placed (as : List α) (k : Nat) :
    (placed f as).filter (·.1 = k) = ((as[k]?.bind f).map (k, ·)).toList := by
  have hpairwise := (pairwise_placed (f := f) as).sublist (List.filter_sublist (p := (·.1 = k)))
  have hmem : ∀ x, x ∈ (placed f as).filter (·.1 = k) ↔ x.1 = k ∧ as[k]?.bind f = some x.2 := by
    rintro ⟨j, b⟩
    simp only [List.mem_filter, mem_placed, decide_eq_true_eq, Option.bind_eq_some_iff]
    constructor
    · rintro ⟨h, rfl⟩
      exact ⟨rfl, h⟩
    · rintro ⟨rfl, h⟩
      exact ⟨h, rfl⟩
  generalize (placed f as).filter (·.1 = k) = here at hpairwise hmem
  cases hb : as[k]?.bind f with
  | none =>
    refine List.eq_nil_iff_forall_not_mem.mpr fun x hx => ?_
    rw [hmem, hb] at hx
    cases hx.2
  | some b =>
    have hall : ∀ x ∈ here, x = (k, b) := by
      rintro ⟨j, c⟩ hx
      rw [hmem, hb, Option.some.injEq] at hx
      exact Prod.ext hx.1 hx.2.symm
    -- two of them would have two places
    have hone : here.Nodup := hpairwise.imp fun hlt heq => by
      rw [heq] at hlt
      exact Nat.lt_irrefl _ hlt
    exact List.perm_singleton.mp ((List.perm_ext_iff_of_nodup hone (List.nodup_singleton _)).mpr
      fun x => ⟨fun hx => List.mem_singleton.mpr (hall x hx), fun hx => by
        rw [List.mem_singleton.mp hx, hmem]
        exact ⟨rfl, hb⟩⟩)

end

/-! ## Numbers between two others -/

theorem between_append {low mid high : Nat} (hl : low ≤ mid) (hh : mid ≤ high) :
    between low high = between low mid ++ between mid high := by
  unfold between
  have hmid : low + 1 * (mid - low) = mid := by omega
  have hlength : high - low = (mid - low) + (high - mid) := by omega
  rw [hlength, ← List.range'_append, hmid]

theorem filter_lt_between {low c high : Nat} (h : c ≤ high) :
    (between low high).filter (· < c) = between low c := by
  by_cases hlow : low ≤ c
  · rw [between_append hlow h, List.filter_append, List.filter_eq_self.mpr,
      List.filter_eq_nil_iff.mpr,
      List.append_nil]
    · intro i hi
      have := mem_between.mp hi
      simpa using this.1
    · intro i hi
      simpa using (mem_between.mp hi).2
  · rw [List.filter_eq_nil_iff.mpr, between, Nat.sub_eq_zero_of_le (by omega)]
    · rfl
    · intro i hi
      have := mem_between.mp hi
      simp
      omega

theorem filter_le_between {low c high : Nat} (hl : low ≤ c) :
    (between low high).filter (c ≤ ·) = between c high := by
  by_cases hhigh : c ≤ high
  · rw [between_append hl hhigh, List.filter_append, List.filter_eq_nil_iff.mpr,
      List.filter_eq_self.mpr, List.nil_append]
    · intro i hi
      simpa using (mem_between.mp hi).1
    · intro i hi
      simpa using (mem_between.mp hi).2
  · rw [List.filter_eq_nil_iff.mpr, between, Nat.sub_eq_zero_of_le (by omega)]
    · rfl
    · intro i hi
      have := mem_between.mp hi
      simp
      omega

/-! ## Plans with places -/

/-- An action of a plan, with the place in the bundle of the entry that each operation is for. -/
structure PlacedAction where
  index : Nat
  kind : ActionKind
  operations : List (Nat × ObjectOperation)

namespace PlacedAction

def action (ns : String) (p : PlacedAction) : Action :=
  ⟨ns, p.index, p.kind, p.operations.map (·.2)⟩

/-- What an action does for the entry at a place, with the index that it does it for. -/
def operationsAt (k : Nat) (p : PlacedAction) : List (Nat × Operation) :=
  (p.operations.filter (·.1 = k)).map fun x => (p.index, x.2.operation)

/-- An action has something to do, for the objects at its places, from the last entry on if it
deletes and from the first one on if it applies. -/
structure Fits (bundle : List (ObjectTemplate × Nat)) (p : PlacedAction) : Prop where
  busy : p.operations ≠ []
  objects : ∀ x ∈ p.operations, bundle[x.1]?.map (·.1) = some x.2.object
  order : match p.kind with
    | .delete => p.operations.Pairwise fun x y => x.1 > y.1
    | .apply => p.operations.Pairwise fun x y => x.1 < y.1

end PlacedAction

/-- What a plan does for an entry with a current count, index by index. -/
def entryPlan (current target : Nat) : List (Nat × Operation) :=
  if target < current then (between target current).map (·, .delete)
  else if current = target then (List.range target).map (·, .patch)
  else (between current target).map (·, .create)

/-- What is done to an object at an index that goes. -/
def deletion (index : Nat) : ObjectTemplate × Nat → Option ObjectOperation
  | (o, current) => if index < current then some ⟨o, .delete⟩ else none

def placedDeletion (bundle : List (ObjectTemplate × Nat)) (i : Nat) : PlacedAction :=
  ⟨i, .delete, (placed (deletion i) bundle).reverse⟩

def placedApplication (bundle : List (ObjectTemplate × Nat)) (target i : Nat) : PlacedAction :=
  ⟨i, .apply, placed (application target i) bundle⟩

variable {bundle : List (ObjectTemplate × Nat)} {target i : Nat}

theorem map_snd_placedDeletion :
    (placedDeletion bundle i).operations.map (·.2) = deletions bundle i := by
  unfold placedDeletion deletions
  rw [List.map_reverse, map_snd_placed, ← List.filterMap_reverse]
  rfl

theorem object_of_deletion {e : ObjectTemplate × Nat} {op : ObjectOperation}
    (h : deletion i e = some op) : e.1 = op.object := by
  obtain ⟨o, c⟩ := e
  simp only [deletion] at h
  split_ifs at h
  cases h
  rfl

theorem object_of_application {e : ObjectTemplate × Nat} {op : ObjectOperation}
    (h : application target i e = some op) : e.1 = op.object := by
  obtain ⟨o, c⟩ := e
  simp only [application] at h
  split_ifs at h <;> cases h <;> rfl

/-- Some entry has a replica with an index that goes. -/
theorem fits_placedDeletion (h : i < greatestCount bundle) :
    (placedDeletion bundle i).Fits bundle where
  busy := by
    obtain ⟨⟨o, c⟩, he, hc⟩ := lt_greatestCount.mp h
    intro hnil
    have hop : ⟨o, .delete⟩ ∈ deletions bundle i := mem_deletions.mpr ⟨rfl, c, he, hc⟩
    rw [← map_snd_placedDeletion, hnil] at hop
    cases hop
  objects := by
    rintro ⟨k, op⟩ hx
    obtain ⟨e, he, hd⟩ := mem_placed.mp (List.mem_reverse.mp hx)
    rw [he, ← object_of_deletion hd]
    rfl
  order := List.pairwise_reverse.mpr (pairwise_placed _)

/-- A bundle that is applied at an index has an entry that is at the target or lacks that index. -/
theorem exists_applied (hne : bundle ≠ []) (h : firstApplied bundle target ≤ i) :
    ∃ e ∈ bundle, e.2 = target ∨ e.2 ≤ i := by
  unfold firstApplied at h
  split at h
  · next hany =>
    obtain ⟨e, he, ht⟩ := List.any_eq_true.mp hany
    exact ⟨e, he, Or.inl (by simpa using ht)⟩
  · obtain ⟨m, hm⟩ : ∃ m, (bundle.map (·.2)).min? = some m :=
      Option.isSome_iff_exists.mp (by simpa [List.isSome_min?_iff] using hne)
    obtain ⟨e, he, rfl⟩ := List.mem_map.mp (List.min?_mem hm)
    rw [hm] at h
    exact ⟨e, he, Or.inr h⟩

theorem fits_placedApplication (hne : bundle ≠ []) (h : firstApplied bundle target ≤ i) :
    (placedApplication bundle target i).Fits bundle where
  busy := by
    obtain ⟨⟨o, c⟩, he, hc⟩ := exists_applied hne h
    intro hnil
    have hop : ∃ op, op ∈ applications bundle target i := by
      by_cases ht : c = target
      · exact ⟨⟨o, .patch⟩, mem_applications.mpr ⟨c, he, Or.inl ⟨ht, rfl⟩⟩⟩
      · exact ⟨⟨o, .create⟩, mem_applications.mpr ⟨c, he, Or.inr ⟨ht, hc.resolve_left ht, rfl⟩⟩⟩
    obtain ⟨op, hop⟩ := hop
    rw [applications, ← map_snd_placed] at hop
    change op ∈ (placedApplication bundle target i).operations.map (·.2) at hop
    rw [hnil] at hop
    cases hop
  objects := by
    rintro ⟨k, op⟩ hx
    obtain ⟨e, he, ha⟩ := mem_placed.mp hx
    rw [he, ← object_of_application ha]
    rfl
  order := pairwise_placed _

/-! ## The plan of an entry -/

theorem operationsAt_placedDeletion {k c : Nat} {o : ObjectTemplate}
    (h : bundle[k]? = some (o, c)) :
    (placedDeletion bundle i).operationsAt k = if i < c then [(i, .delete)] else [] := by
  unfold PlacedAction.operationsAt placedDeletion
  rw [List.filter_reverse, filter_placed, h, Option.bind_some, deletion]
  split <;> rfl

theorem operationsAt_placedApplication {k c : Nat} {o : ObjectTemplate}
    (h : bundle[k]? = some (o, c)) :
    (placedApplication bundle target i).operationsAt k =
      if c = target then [(i, .patch)] else if c ≤ i then [(i, .create)] else [] := by
  unfold PlacedAction.operationsAt placedApplication
  rw [filter_placed, h, Option.bind_some, application]
  split_ifs <;> rfl

theorem flatMap_ite {α β : Type} (p : α → Prop) [DecidablePred p] (f : α → β) (as : List α) :
    (as.flatMap fun a => if p a then [f a] else []) = (as.filter (p ·)).map f := by
  induction as with
  | nil => rfl
  | cons a rest ih =>
    rw [List.flatMap_cons, ih, List.filter_cons]
    by_cases h : p a <;> simp [h]

/-- The indices at which an entry loses a replica are those from the target up to its count. -/
theorem flatMap_placedDeletion {k c : Nat} {o : ObjectTemplate} (h : bundle[k]? = some (o, c)) :
    ((between target (greatestCount bundle)).map (placedDeletion bundle)).flatMap
        (·.operationsAt k) = (between target c).map (·, .delete) := by
  have hle : c ≤ greatestCount bundle := by
    by_contra hlt
    exact absurd (lt_greatestCount.mpr ⟨(o, c), List.mem_of_getElem? h, Nat.lt_of_not_le hlt⟩)
      (Nat.lt_irrefl _)
  rw [List.flatMap_map]
  simp only [operationsAt_placedDeletion h]
  rw [flatMap_ite (· < c) (·, Operation.delete), filter_lt_between hle]

/-- The indices at which an entry is applied. -/
theorem flatMap_placedApplication {k c : Nat} {o : ObjectTemplate}
    (h : bundle[k]? = some (o, c)) :
    ((between (firstApplied bundle target) target).map (placedApplication bundle target)).flatMap
        (·.operationsAt k) =
      if c = target then (List.range target).map (·, .patch)
      else (between c target).map (·, .create) := by
  have he := List.mem_of_getElem? h
  rw [List.flatMap_map]
  simp only [operationsAt_placedApplication h]
  by_cases ht : c = target
  · simp only [if_pos ht]
    rw [firstApplied_of_reached he ht, between, Nat.sub_zero, ← List.range_eq_range',
      List.map_eq_flatMap]
  · simp only [if_neg ht]
    rw [flatMap_ite (c ≤ ·) (·, Operation.create), filter_le_between (firstApplied_le he)]

theorem between_eq_nil {low high : Nat} (h : high ≤ low) : between low high = [] := by
  rw [between, Nat.sub_eq_zero_of_le h]
  rfl

/-- An entry above the target only loses replicas, and one below it only gains some. -/
theorem entryPlan_eq (c target : Nat) :
    entryPlan c target = (between target c).map (·, .delete) ++
      if c = target then (List.range target).map (·, .patch)
      else (between c target).map (·, .create) := by
  unfold entryPlan
  split
  · next h => rw [if_neg (by omega), between_eq_nil (Nat.le_of_lt h), List.map_nil, List.append_nil]
  · next h => rw [between_eq_nil (Nat.le_of_not_lt h), List.map_nil, List.nil_append]

theorem map_index_between {f : Nat → PlacedAction} (hf : ∀ i, (f i).index = i) (low high : Nat) :
    ((between low high).map f).map (·.index) = between low high := by
  rw [List.map_map]
  exact (List.map_congr_left fun i _ => hf i).trans (List.map_id _)

/-- The plan of a namespace is determined entry by entry: whatever the counts of the other entries
are, an entry above the target is deleted from the target up to its count, one at the target is
patched below it, and one below the target is created from its count on. Deletions come before
applications, with consecutive indices that they do not share; no action is empty; and an action
goes through the bundle from its end if it deletes and from its beginning if it applies. -/
theorem entries_planned (ns : String) (bundle : List (ObjectTemplate × Nat)) (target : Nat) :
    ∃ deleted applied : List PlacedAction,
      planNamespace ns bundle target = (deleted ++ applied).map (·.action ns) ∧
      (∀ p ∈ deleted, p.kind = .delete ∧ p.Fits bundle) ∧
      (∀ p ∈ applied, p.kind = .apply ∧ p.Fits bundle) ∧
      (∃ low, deleted.map (·.index) = List.range' low deleted.length) ∧
      (∃ low, applied.map (·.index) = List.range' low applied.length) ∧
      (deleted.map (·.index)).Disjoint (applied.map (·.index)) ∧
      ∀ k : Fin bundle.length,
        (deleted ++ applied).flatMap (·.operationsAt k) = entryPlan bundle[k].2 target := by
  by_cases hne : bundle = []
  · subst hne
    exact ⟨[], [], rfl, nofun, nofun, ⟨0, rfl⟩, ⟨0, rfl⟩, List.disjoint_nil_left _, nofun⟩
  · refine ⟨(between target (greatestCount bundle)).map (placedDeletion bundle),
      (between (firstApplied bundle target) target).map (placedApplication bundle target),
      ?plan, ?deleted, ?applied, ⟨target, ?_⟩, ⟨firstApplied bundle target, ?_⟩, ?apart, ?entries⟩
    case plan =>
      unfold planNamespace
      rw [if_neg (by simpa using hne), List.map_append, List.map_map, List.map_map]
      congr 1
      · refine List.map_congr_left fun i _ => ?_
        rw [← map_snd_placedDeletion]
        rfl
      · refine List.map_congr_left fun i _ => ?_
        rw [applications, ← map_snd_placed]
        rfl
    case deleted =>
      intro p hp
      obtain ⟨i, hi, rfl⟩ := List.mem_map.mp hp
      exact ⟨rfl, fits_placedDeletion (mem_between.mp hi).2⟩
    case applied =>
      intro p hp
      obtain ⟨i, hi, rfl⟩ := List.mem_map.mp hp
      exact ⟨rfl, fits_placedApplication hne (mem_between.mp hi).1⟩
    · rw [map_index_between fun _ => rfl]
      simp [between]
    · rw [map_index_between fun _ => rfl]
      simp [between]
    case apart =>
      rw [map_index_between fun _ => rfl, map_index_between fun _ => rfl]
      intro i hd ha
      exact absurd (mem_between.mp ha).2 (Nat.not_lt.mpr (mem_between.mp hd).1)
    case entries =>
      intro k
      have hk : bundle[k.val]? = some (bundle[k].1, bundle[k].2) := List.getElem?_eq_getElem k.isLt
      rw [List.flatMap_append, flatMap_placedDeletion hk, flatMap_placedApplication hk,
        entryPlan_eq]

/-- One entry above the target, one at it and one below it. -/
example (a b c : ObjectTemplate) :
    (planNamespace "ns" [(a, 4), (b, 2), (c, 0)] 2).map
      (fun x => (x.index, x.operations.map fun op => (op.object, op.operation))) =
    [(2, [(a, .delete)]), (3, [(a, .delete)]),
      (0, [(b, .patch), (c, .create)]), (1, [(b, .patch), (c, .create)])] := rfl

end ReplicaLoad

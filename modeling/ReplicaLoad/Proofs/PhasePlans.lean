-- The plans of phases. What a phase plans, entry by entry. Entering a wanted
-- count never changes a reached one, so that the plan of a namespace depends on
-- the counts before the phase alone; and the counts that a phase enters and
-- commits can be read off the store before it.
import ReplicaLoad.Run.Phase
import Mathlib.Data.List.Nodup
import Mathlib.Tactic.SplitIfs

namespace ReplicaLoad

/-! ## The operations of a namespace -/

theorem mem_between {low high i : Nat} : i ∈ between low high ↔ low ≤ i ∧ i < high := by
  unfold between
  rw [List.mem_range'_1]
  omega

theorem lt_foldl_max {bundle : List (ObjectTemplate × Nat)} {start i : Nat} :
    i < bundle.foldl (fun n e => max n e.2) start ↔ i < start ∨ ∃ e ∈ bundle, i < e.2 := by
  induction bundle generalizing start with
  | nil => simp
  | cons e rest ih =>
    have hmax : i < max start e.2 ↔ i < start ∨ i < e.2 := by omega
    rw [List.foldl_cons, ih, hmax, List.exists_mem_cons_iff, or_assoc]

/-- An index lies below the greatest count when some entry still has it. -/
theorem lt_greatestCount {bundle : List (ObjectTemplate × Nat)} {i : Nat} :
    i < greatestCount bundle ↔ ∃ e ∈ bundle, i < e.2 := by
  unfold greatestCount
  rw [lt_foldl_max]
  simp

/-- No entry has a lower count than the index from which on a bundle is applied. -/
theorem firstApplied_le {bundle : List (ObjectTemplate × Nat)} {target : Nat}
    {e : ObjectTemplate × Nat} (he : e ∈ bundle) : firstApplied bundle target ≤ e.2 := by
  unfold firstApplied
  split
  · exact Nat.zero_le _
  · exact List.min?_getD_le_of_mem (List.mem_map_of_mem he)

theorem firstApplied_of_reached {bundle : List (ObjectTemplate × Nat)} {target : Nat}
    {e : ObjectTemplate × Nat} (he : e ∈ bundle) (ht : e.2 = target) :
    firstApplied bundle target = 0 := by
  unfold firstApplied
  rw [if_pos]
  simp only [List.any_eq_true, decide_eq_true_eq]
  exact ⟨e, he, ht⟩

/-- What a plan does to the replica with an index of an object that has so many replicas. -/
def plannedFor (current target i : Nat) : Option Operation :=
  if current = target then if i < target then some .patch else none
  else if current ≤ i ∧ i < target then some .create
  else if target ≤ i ∧ i < current then some .delete
  else none

/-- What is planned for a replica fits whether it is there. -/
theorem lt_current_of_plannedFor {current target i : Nat} {op : Operation}
    (h : plannedFor current target i = some op) : i < current ↔ op ≠ .create := by
  unfold plannedFor at h
  split_ifs at h with h1 h2 h3 h4 <;> cases h
  · simp
    omega
  · simp
    omega
  · simp
    omega

/-- What is planned for a replica brings it to the target. -/
theorem lt_target_of_plannedFor {current target i : Nat} {op : Operation}
    (h : plannedFor current target i = some op) : i < target ↔ op ≠ .delete := by
  unfold plannedFor at h
  split_ifs at h with h1 h2 h3 h4 <;> cases h
  · simp
    omega
  · simp
    omega
  · simp
    omega

/-- Where nothing is planned nothing has to change. -/
theorem lt_iff_of_plannedFor {current target i : Nat} (h : plannedFor current target i = none) :
    i < target ↔ i < current := by
  unfold plannedFor at h
  split_ifs at h with h1 h2 h3 h4 <;> omega

theorem mem_deletions {bundle : List (ObjectTemplate × Nat)} {i : Nat} {op : ObjectOperation} :
    op ∈ deletions bundle i ↔ op.operation = .delete ∧ ∃ c, (op.object, c) ∈ bundle ∧ i < c := by
  obtain ⟨o, operation⟩ := op
  unfold deletions
  simp only [List.mem_filterMap, List.mem_reverse, Prod.exists]
  constructor
  · rintro ⟨o', c, hm, h⟩
    split at h
    · cases h
      exact ⟨rfl, c, hm, ‹_›⟩
    · cases h
  · rintro ⟨rfl, c, hm, hc⟩
    exact ⟨o, c, hm, by simp [hc]⟩

theorem mem_applications {bundle : List (ObjectTemplate × Nat)} {target i : Nat}
    {op : ObjectOperation} :
    op ∈ applications bundle target i ↔ ∃ c, (op.object, c) ∈ bundle ∧
      (c = target ∧ op.operation = .patch ∨ c ≠ target ∧ c ≤ i ∧ op.operation = .create) := by
  obtain ⟨o, operation⟩ := op
  unfold applications
  simp only [List.mem_filterMap, Prod.exists, application]
  constructor
  · rintro ⟨o', c, hm, h⟩
    split at h
    · cases h
      exact ⟨c, hm, Or.inl ⟨‹_›, rfl⟩⟩
    · split at h
      · cases h
        exact ⟨c, hm, Or.inr ⟨‹_›, ‹_›, rfl⟩⟩
      · cases h
  · rintro ⟨c, hm, ⟨hc, rfl⟩ | ⟨hc, hi, rfl⟩⟩
    · exact ⟨o, c, hm, by simp [hc]⟩
    · exact ⟨o, c, hm, by simp [hc, hi]⟩

theorem mem_planNamespace {ns : String} {bundle : List (ObjectTemplate × Nat)} {target : Nat}
    {a : Action} :
    a ∈ planNamespace ns bundle target ↔ bundle ≠ [] ∧
      ((target ≤ a.index ∧ a.index < greatestCount bundle ∧
          a = ⟨ns, a.index, .delete, deletions bundle a.index⟩) ∨
        (firstApplied bundle target ≤ a.index ∧ a.index < target ∧
          a = ⟨ns, a.index, .apply, applications bundle target a.index⟩)) := by
  unfold planNamespace
  cases bundle with
  | nil => simp
  | cons e rest =>
    simp only [List.isEmpty_cons, Bool.false_eq_true, if_false, List.mem_append, List.mem_map,
      mem_between, ne_eq, reduceCtorEq, not_false_eq_true, true_and]
    refine or_congr ?_ ?_
    · constructor
      · rintro ⟨i, ⟨hl, hh⟩, rfl⟩
        exact ⟨hl, hh, rfl⟩
      · rintro ⟨hl, hh, ha⟩
        exact ⟨a.index, ⟨hl, hh⟩, ha.symm⟩
    · constructor
      · rintro ⟨i, ⟨hl, hh⟩, rfl⟩
        exact ⟨hl, hh, rfl⟩
      · rintro ⟨hl, hh, ha⟩
        exact ⟨a.index, ⟨hl, hh⟩, ha.symm⟩

/-- The operations of a plan, replica by replica: those of an entry depend on its own count and on
no other entry. -/
theorem mem_planNamespace_operations {ns : String} {bundle : List (ObjectTemplate × Nat)}
    {target i : Nat} {op : ObjectOperation} :
    (∃ a ∈ planNamespace ns bundle target, a.index = i ∧ op ∈ a.operations) ↔
      ∃ c, (op.object, c) ∈ bundle ∧ plannedFor c target i = some op.operation := by
  constructor
  · rintro ⟨a, ha, rfl, hop⟩
    -- deletions are for indices from the target on, and applications for those below it
    obtain ⟨-, ⟨hl, -, hd⟩ | ⟨-, hh, hd⟩⟩ := mem_planNamespace.mp ha
    · rw [hd] at hop
      obtain ⟨ho, c, hm, hc⟩ := mem_deletions.mp hop
      refine ⟨c, hm, ?_⟩
      rw [plannedFor, if_neg (by omega), if_neg (by omega), if_pos ⟨hl, hc⟩, ho]
    · rw [hd] at hop
      obtain ⟨c, hm, ⟨hc, ho⟩ | ⟨hc, hi, ho⟩⟩ := mem_applications.mp hop
      · exact ⟨c, hm, by rw [plannedFor, if_pos hc, if_pos hh, ho]⟩
      · exact ⟨c, hm, by rw [plannedFor, if_neg hc, if_pos ⟨hi, hh⟩, ho]⟩
  · rintro ⟨c, hm, hp⟩
    have hne : bundle ≠ [] := List.ne_nil_of_mem hm
    -- whichever operation it is, the action of its index is planned because of this entry
    unfold plannedFor at hp
    split_ifs at hp with h1 h2 h3 h4
    · refine ⟨⟨ns, i, .apply, applications bundle target i⟩, ?_, rfl, ?_⟩
      · rw [mem_planNamespace, firstApplied_of_reached hm h1]
        exact ⟨hne, Or.inr ⟨Nat.zero_le _, h2, rfl⟩⟩
      · exact mem_applications.mpr ⟨c, hm, Or.inl ⟨h1, (Option.some.inj hp).symm⟩⟩
    · refine ⟨⟨ns, i, .apply, applications bundle target i⟩, ?_, rfl, ?_⟩
      · rw [mem_planNamespace]
        exact ⟨hne, Or.inr ⟨Nat.le_trans (firstApplied_le hm) h3.1, h3.2, rfl⟩⟩
      · exact mem_applications.mpr ⟨c, hm, Or.inr ⟨h1, h3.1, (Option.some.inj hp).symm⟩⟩
    · refine ⟨⟨ns, i, .delete, deletions bundle i⟩, ?_, rfl, ?_⟩
      · rw [mem_planNamespace]
        exact ⟨hne, Or.inl ⟨h4.1, lt_greatestCount.mpr ⟨_, hm, h4.2⟩, rfl⟩⟩
      · exact mem_deletions.mpr ⟨(Option.some.inj hp).symm, c, hm, h4.2⟩

/-! ## The replicas of a plan -/

theorem ns_of_mem_planNamespace {ns : String} {bundle : List (ObjectTemplate × Nat)} {target : Nat}
    {a : Action} (ha : a ∈ planNamespace ns bundle target) : a.ns = ns := by
  obtain ⟨-, ⟨-, -, hd⟩ | ⟨-, -, hd⟩⟩ := mem_planNamespace.mp ha
  · rw [hd]
  · rw [hd]

/-- A plan has at most one action for an index. -/
theorem planNamespace_index_nodup (ns : String) (bundle : List (ObjectTemplate × Nat))
    (target : Nat) : ((planNamespace ns bundle target).map (·.index)).Nodup := by
  unfold planNamespace
  split
  · exact List.nodup_nil
  · simp only [List.map_append, List.map_map, Function.comp_def, List.map_id']
    rw [List.nodup_append]
    refine ⟨List.nodup_range', List.nodup_range', ?_⟩
    intro i hi j hj
    have := mem_between.mp hi
    have := mem_between.mp hj
    omega

theorem map_filterMap_sublist {α β γ : Type} {f : α → Option β} {k : β → γ} {l : α → γ}
    (h : ∀ a b, f a = some b → k b = l a) (as : List α) :
    ((as.filterMap f).map k).Sublist (as.map l) := by
  induction as with
  | nil => exact List.Sublist.slnil
  | cons a rest ih =>
    rw [List.filterMap_cons]
    split
    · exact ih.cons _
    · rename_i b hb
      rw [List.map_cons, List.map_cons, h a b hb]
      exact ih.cons_cons _

/-- An action does at most one operation for an entry of its bundle. -/
theorem operations_nodup {β : Type} {ns : String} {bundle : List (ObjectTemplate × Nat)}
    {target : Nat} {a : Action} (f : ObjectTemplate → β)
    (hb : (bundle.map fun e => f e.1).Nodup) (ha : a ∈ planNamespace ns bundle target) :
    (a.operations.map fun op => f op.object).Nodup := by
  obtain ⟨-, ⟨-, -, hd⟩ | ⟨-, -, hd⟩⟩ := mem_planNamespace.mp ha
  · rw [hd]
    have hs : ((deletions bundle a.index).map fun op => f op.object).Sublist
        (bundle.reverse.map fun e => f e.1) := by
      apply map_filterMap_sublist
      rintro ⟨o, c⟩ op h
      simp only at h
      split at h <;> cases h
      rfl
    refine List.Nodup.sublist hs ?_
    rw [List.map_reverse, List.nodup_reverse]
    exact hb
  · rw [hd]
    have hs : ((applications bundle target a.index).map fun op => f op.object).Sublist
        (bundle.map fun e => f e.1) := by
      apply map_filterMap_sublist
      rintro ⟨o, c⟩ op h
      simp only [application] at h
      split_ifs at h <;> cases h
      · rfl
      · rfl
    exact hb.sublist hs

def Environment.group (env : Environment) (o : ObjectTemplate) : ReplicaGroup :=
  match env.identify o with
  | .ok g => g
  | .error _ => default

/-- The replicas that an action still works on: their groups and their index. -/
def Environment.replicas (env : Environment) (a : Action) : List (GroupKey × Nat) :=
  a.operations.map fun op => ((a.ns, env.group op.object), a.index)

theorem identifyAll_ok {env : Environment} {os : List ObjectTemplate}
    {bundle : List (ObjectTemplate × ReplicaGroup)} (h : env.identifyAll os = .ok bundle) :
    ∀ e ∈ bundle, env.identify e.1 = .ok e.2 := by
  induction os generalizing bundle with
  | nil => cases h; simp
  | cons o rest ih =>
    unfold Environment.identifyAll at h
    split at h
    · cases h
    · rename_i g hg
      split at h
      · cases h
      · rename_i gs hgs
        cases h
        intro e he
        rcases List.mem_cons.mp he with rfl | he
        · exact hg
        · exact ih hgs e he

theorem Environment.identify_ok {env : Environment} {o : ObjectTemplate} {g : ReplicaGroup}
    (h : env.identify o = .ok g) :
    ∃ found, env.bareObject o.path = .ok found ∧
      g = ⟨o.basename, found.kind, found.groupVersionKind.group⟩ := by
  unfold Environment.identify at h
  split at h
  · rename_i found hf
    cases h
    exact ⟨found, hf, rfl⟩
  · cases h

theorem group_of_identify {env : Environment} {o : ObjectTemplate} {g : ReplicaGroup}
    (h : env.identify o = .ok g) : env.group o = g := by
  simp [Environment.group, h]

end ReplicaLoad

-- Progress of units. A unit of a step that has not been waited for can go on,
-- whether the units beside it have returned, have crashed or still run, and no
-- order of the steps goes on for ever. So every step returns, and only when all
-- its units have come to their ends.
import Mathlib.Algebra.Order.Ring.Nat
import Mathlib.Order.WellFounded
import ReplicaLoad.Proofs.StepUnits

namespace ReplicaLoad

/-! ## No unit is left behind -/

namespace StepRun

variable {env : Environment} {may : Outcomes} {step : String} {t t' : StepRun}

end StepRun

/-! ## Every order comes to its end -/

namespace PhaseState

/-- The steps before the actions of a phase are known. -/
def entries (env : Environment) : PhaseState → Nat
  | .waiting p => match env.ready p with
    | .ok (some r) => r.namespaces.length * (2 * r.bundle.length + 1) + 1
    | _ => 1
  | .reading e => 2 * e.left.length + 1 + e.later.length * (2 * e.bundle.length + 1)
  | .writing e _ _ _ => 2 * e.left.length + 1 + e.later.length * (2 * e.bundle.length + 1) + 1
  | _ => 0

/-- The steps from there on. -/
def tasks : PhaseState → Nat
  | .acting _ actions commits =>
    (actions.map fun a => a.operations.length + 1).sum + commits.length + 2
  | .committing _ commits => commits.length + 1
  | _ => 0

theorem entries_dispatch (env : Environment) (load : Load) (actions : List Action)
    (commits : List (GroupKey × Instances)) : (dispatch load actions commits).entries env = 0 :=
  dispatch_induction (P := (·.entries env = 0)) rfl fun _ => rfl

theorem entries_enrol_lt {env : Environment} {p : Phase} {r : ReadyPhase}
    (h : env.ready p = .ok (some r)) : r.enrol.entries env < entries env (.waiting p) := by
  unfold ReadyPhase.enrol
  cases hns : r.namespaces with
  | nil =>
    dsimp only
    rw [entries_dispatch]
    simp [entries, h]
  | cons ns later =>
    simp only [entries, h, hns, List.length_cons, Nat.add_mul]
    omega

theorem entries_next_lt (env : Environment) (e : Enrolment) :
    e.next.entries env < entries env (.reading e) := by
  unfold Enrolment.next
  cases hlater : e.later with
  | nil =>
    dsimp only
    rw [entries_dispatch]
    simp only [entries]
    omega
  | cons ns later =>
    simp only [entries, hlater, List.length_cons, Nat.add_mul]
    omega

/-- A step leaves fewer entries, or as many entries and fewer tasks. -/
theorem Step.rank {env : Environment} {may : Outcomes} {w w' : World} {q q' : PhaseState}
    (h : Step env may w q w' q') : q'.entries env < q.entries env ∨
      q'.entries env = q.entries env ∧ q'.tasks < q.tasks := by
  cases h with
  | @refuse p e hr => exact .inl (by simp [entries, hr])
  | @idle p hr => exact .inl (by simp [entries, hr])
  | enrol hr => exact .inl (entries_enrol_lt hr)
  | @read e o g left hleft =>
    refine .inl ?_
    simp only [entries, hleft, List.length_cons]
    omega
  | write => exact .inl (Nat.lt_succ_self _)
  | next => exact .inl (entries_next_lt env _)
  | @operate errors before a op rest after commits done hops hdone =>
    refine .inr ⟨rfl, ?_⟩
    -- of an operation that has been performed, at most the rest of its action remains
    have hremains : ((done.remains a rest).map fun a => a.operations.length + 1).sum ≤
        rest.length + 1 := by
      unfold Performed.remains
      split
      · simp
      · exact Nat.zero_le _
    simp only [tasks, List.map_append, List.sum_append, List.map_cons, List.sum_cons, hops,
      List.length_cons]
    omega
  | @finish errors before a after commits hops =>
    refine .inr ⟨rfl, ?_⟩
    simp only [tasks, List.map_append, List.sum_append, List.map_cons, List.sum_cons, hops,
      List.length_nil]
    omega
  | settle => exact .inr ⟨rfl, by simp [tasks]⟩
  | commit => exact .inr ⟨rfl, by simp [tasks]⟩
  | leave => exact .inr ⟨rfl, by simp [tasks]⟩

end PhaseState

namespace StepUnit

def entries (env : Environment) : StepUnit → Nat
  | .phase q => q.entries env
  | _ => 0

def tasks : StepUnit → Nat
  | .call _ => 4
  | .answered _ _ => 3
  | .phase q => q.tasks + 3
  | .crashing _ => 3
  | .ended _ => 2
  | .joined _ => 0

theorem Advance.rank {env : Environment} {may : Outcomes} {w w' : World} {u u' : StepUnit}
    (h : Advance env may w u w' u') : u'.entries env < u.entries env ∨
      u'.entries env = u.entries env ∧ u'.tasks < u.tasks := by
  cases h with
  | call => exact .inr ⟨rfl, Nat.lt_succ_self _⟩
  | phase hs =>
    rcases hs.rank with hlt | ⟨heq, hlt⟩
    · exact .inl hlt
    · exact .inr ⟨heq, Nat.add_lt_add_right hlt 3⟩
  | @crash q reason hq _ =>
    -- a phase that can crash has something left to do
    cases q with
    | waiting p =>
      refine .inl ?_
      simp only [entries, PhaseState.entries]
      split <;> omega
    | reading e =>
      refine .inl ?_
      simp only [entries, PhaseState.entries]
      omega
    | writing e o key counts =>
      refine .inl ?_
      simp only [entries, PhaseState.entries]
      omega
    | acting errors actions commits =>
      refine .inr ⟨rfl, ?_⟩
      simp only [tasks, PhaseState.tasks]
      omega
    | committing errors commits =>
      refine .inr ⟨rfl, ?_⟩
      simp only [tasks, PhaseState.tasks]
      omega
    | ended errors => cases hq

theorem rank_of_end? {u : StepUnit} {e : UnitEnd} (env : Environment) (h : u.end? = some e) :
    u.entries env = 0 ∧ 3 ≤ u.tasks := by
  cases u with
  | answered m outcome => exact ⟨rfl, Nat.le_refl 3⟩
  | crashing reason => exact ⟨rfl, Nat.le_refl 3⟩
  | phase q =>
    cases q with
    | ended errors => exact ⟨rfl, Nat.le_refl 3⟩
    | _ => cases h
  | _ => cases h

end StepUnit

namespace StepRun

variable {env : Environment} {may : Outcomes} {step : String} {t t' : StepRun}

/-- What is left to do of all units: their entries, and then their tasks. -/
def rank (env : Environment) (t : StepRun) : Nat × Nat :=
  ((t.units.map (StepUnit.entries env)).sum, (t.units.map StepUnit.tasks).sum)

theorem rank_lt {w w' : World} {before after : List StepUnit} {u u' : StepUnit}
    {errors errors' : List RunError} (h : u'.entries env < u.entries env ∨
      u'.entries env = u.entries env ∧ u'.tasks < u.tasks) :
    Prod.Lex (· < ·) (· < ·) (rank env ⟨w', before ++ u' :: after, errors'⟩)
      (rank env ⟨w, before ++ u :: after, errors⟩) := by
  simp only [rank, List.map_append, List.map_cons, List.sum_append, List.sum_cons]
  rcases h with hlt | ⟨heq, hlt⟩
  · exact .left _ _ (by omega)
  · rw [heq]
    exact .right _ (by omega)

theorem Next.rank (h : Next env may step t t') :
    Prod.Lex (· < ·) (· < ·) (t'.rank env) (t.rank env) := by
  obtain ⟨i, hs⟩ := h
  cases hs with
  | move hu => exact rank_lt hu.rank
  | record he =>
    obtain ⟨hentries, htasks⟩ := StepUnit.rank_of_end? env he
    exact rank_lt (.inr ⟨hentries.symm, htasks⟩)
  | join => exact rank_lt (.inr ⟨rfl, Nat.zero_lt_two⟩)

end StepRun

end ReplicaLoad

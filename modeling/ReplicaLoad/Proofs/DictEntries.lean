-- Entries of dictionaries. What sets of different keys do to each other, and
-- what a dictionary holds that is made of a list of entries. Sets commute down
-- to the places of the entries, and keep the keys in ascending order.
import Mathlib.Data.String.Basic
import ReplicaLoad.Table
import ReplicaLoad.Value.Basic

namespace ReplicaLoad

namespace Dict

/-! ## Sets of different keys -/

theorem insert_of_lt {key k : String} (h : k < key) (v u : Value) (d : Dict) :
    insert key v ((k, u) :: d) = (k, u) :: insert key v d := by
  simp [insert, h.ne, h.not_gt]

theorem insert_before {key k : String} (h : key < k) (v u : Value) (d : Dict) :
    insert key v ((k, u) :: d) = (key, v) :: (k, u) :: d := by
  simp [insert, h.ne', h]

theorem insert_comm_of_lt {key key' : String} (h : key < key') (v v' : Value) (d : Dict) :
    insert key' v' (insert key v d) = insert key v (insert key' v' d) := by
  induction d with
  | nil =>
    rw [show insert key v [] = [(key, v)] from rfl, insert_of_lt h,
      show insert key' v' [] = [(key', v')] from rfl, insert_before h]
  | cons e rest ih =>
    obtain ⟨k, u⟩ := e
    rcases lt_trichotomy k key with hk | rfl | hk
    · rw [insert_of_lt hk, insert_of_lt (hk.trans h), insert_of_lt (hk.trans h), insert_of_lt hk, ih]
    · rw [insert_of_lt h]
      simp only [insert, if_true]
      exact insert_of_lt h v' v rest
    · -- the smaller key comes first, before whatever the other one makes of the dictionary
      rw [insert_before hk, insert_of_lt h]
      rcases lt_trichotomy k key' with hk' | rfl | hk'
      · rw [insert_of_lt hk', insert_before hk]
      · simp only [insert, if_true]
        exact (insert_before hk v v' rest).symm
      · rw [insert_before hk', insert_before h]

/-- Sets of different keys commute. -/
theorem insert_comm {key key' : String} (h : key ≠ key') (v v' : Value) (d : Dict) :
    insert key' v' (insert key v d) = insert key v (insert key' v' d) := by
  rcases lt_or_gt_of_ne h with hlt | hlt
  · exact insert_comm_of_lt hlt v v' d
  · exact (insert_comm_of_lt hlt v' v d).symm

/-- A set leaves the entries of the other keys as they are, in their order. -/
theorem filter_insert (key : String) (v : Value) (d : Dict) :
    (insert key v d).filter (·.1 ≠ key) = d.filter (·.1 ≠ key) := by
  induction d with
  | nil => simp [insert]
  | cons e rest ih =>
    obtain ⟨k, u⟩ := e
    rcases lt_trichotomy k key with hk | rfl | hk
    · rw [insert_of_lt hk, List.filter_cons, List.filter_cons, ih]
    · simp [insert]
    · rw [insert_before hk, List.filter_cons_of_neg (by simp)]

/-! ## Ascending keys -/

/-- No key stands twice, and the keys are in order. -/
def Ascending (d : Dict) : Prop := d.Pairwise fun e e' => e.1 < e'.1

theorem mem_insert {key : String} {v : Value} {d : Dict} {e : String × Value}
    (h : e ∈ insert key v d) : e = (key, v) ∨ e ∈ d := by
  induction d with
  | nil => simpa [insert] using h
  | cons first rest ih =>
    obtain ⟨k, u⟩ := first
    rcases lt_trichotomy k key with hk | rfl | hk
    · rw [insert_of_lt hk] at h
      rcases List.mem_cons.mp h with rfl | h
      · exact Or.inr List.mem_cons_self
      · exact (ih h).imp id (List.mem_cons_of_mem _)
    · simp only [insert, if_true] at h
      exact (List.mem_cons.mp h).imp id (List.mem_cons_of_mem _)
    · rw [insert_before hk] at h
      exact List.mem_cons.mp h

theorem Ascending.insert {d : Dict} (h : Ascending d) (key : String) (v : Value) :
    Ascending (insert key v d) := by
  induction d with
  | nil => exact List.pairwise_singleton _ _
  | cons first rest ih =>
    obtain ⟨k, u⟩ := first
    obtain ⟨hfirst, hrest⟩ := List.pairwise_cons.mp h
    rcases lt_trichotomy k key with hk | rfl | hk
    · rw [insert_of_lt hk]
      refine List.pairwise_cons.mpr ⟨fun e he => ?_, ih hrest⟩
      rcases mem_insert he with rfl | he
      · exact hk
      · exact hfirst e he
    · simp only [Dict.insert, if_true]
      exact List.pairwise_cons.mpr ⟨hfirst, hrest⟩
    · rw [insert_before hk]
      refine List.pairwise_cons.mpr ⟨fun e he => ?_, h⟩
      rcases List.mem_cons.mp he with rfl | he
      · exact hk
      · exact hk.trans (hfirst e he)

theorem get?_foldl_insert {entries : List (String × Value)} (h : (entries.map (·.1)).Nodup)
    (d : Dict) (key : String) :
    get? key (entries.foldl (fun d e => Dict.insert e.1 e.2 d) d) =
      (Table.find? key entries).or (get? key d) := by
  induction entries generalizing d with
  | nil => rfl
  | cons e rest ih =>
    obtain ⟨hnew, hrest⟩ := List.nodup_cons.mp h
    rw [List.foldl_cons, ih hrest, get?_insert]
    by_cases he : e.1 = key
    · subst he
      have hnone : Table.find? e.1 rest = none := Table.find?_eq_none_iff.mpr hnew
      simp [Table.find?, hnone]
    · simp [Table.find?, he]

/-- A dictionary of entries with different keys holds each of them. -/
theorem get?_ofList {entries : List (String × Value)} (h : (entries.map (·.1)).Nodup)
    (key : String) : get? key (ofList entries) = Table.find? key entries := by
  rw [ofList, get?_foldl_insert h]
  exact Option.or_none

end Dict

end ReplicaLoad

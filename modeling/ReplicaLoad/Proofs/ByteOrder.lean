-- The order of bytes. Texts are compared character by character, and kept in
-- UTF-8. The encoding keeps the order of characters, whatever comes behind
-- them, so that the order of texts is that of their bytes.
import Mathlib.Tactic.ByContra
import Mathlib.Tactic.SplitIfs
import ReplicaLoad.Text.Digits

namespace ReplicaLoad.Text

/-- The bytes of a text in UTF-8. -/
def bytes (s : String) : List UInt8 := s.toByteArray.data.toList

theorem bytes_eq (s : String) : bytes s = s.toList.flatMap String.utf8EncodeChar := by
  have hs := congrArg bytes (String.ofList_toList (s := s))
  rw [← hs]
  unfold bytes
  rw [String.toByteArray_ofList]
  exact List.toList_data_toByteArray

/-- The digits of a number to the base 64, but for the last one. -/
theorem digits_eq (n : Nat) :
    n / 64 = 64 * (n / 4096) + n / 64 % 64 ∧ n / 4096 = 64 * (n / 262144) + n / 4096 % 64 := by
  omega

/-- The bytes of a smaller character come first, whatever comes behind. -/
theorem utf8EncodeChar_lt {c d : Char} (h : c < d) (xs ys : List UInt8) :
    String.utf8EncodeChar c ++ xs < String.utf8EncodeChar d ++ ys := by
  have hlt : c.val.toNat < d.val.toNat := h
  have hd : d.val.toNat < 0x110000 := by
    rcases d.valid with hv | hv
    · exact Nat.lt_trans hv (by decide)
    · exact hv.2
  unfold String.utf8EncodeChar
  generalize c.val.toNat = m at *
  generalize d.val.toNat = n at *
  have hm := digits_eq m
  have hn := digits_eq n
  dsimp only
  -- by the numbers of bytes: the first byte decides if they differ, and the digits if they do not
  split_ifs <;>
    simp (disch := omega) only [List.cons_append, List.nil_append, List.cons_lt_cons_iff,
      UInt8.lt_iff_toNat_lt, ← UInt8.toNat_inj, UInt8.toNat_ofNat', Nat.mod_eq_of_lt] <;>
    omega

theorem utf8EncodeChar_ne_nil (c : Char) : String.utf8EncodeChar c ≠ [] := by
  unfold String.utf8EncodeChar
  dsimp only
  split_ifs <;> simp

theorem flatMap_utf8EncodeChar_lt {cs ds : List Char} (h : cs < ds) :
    cs.flatMap String.utf8EncodeChar < ds.flatMap String.utf8EncodeChar := by
  induction cs generalizing ds with
  | nil =>
    cases ds with
    | nil => exact absurd h (List.lt_irrefl _)
    | cons d rest =>
      rw [List.flatMap_cons]
      obtain ⟨b, bs, hb⟩ := List.exists_cons_of_ne_nil (utf8EncodeChar_ne_nil d)
      rw [hb]
      exact List.nil_lt_cons _ _
  | cons c rest ih =>
    cases ds with
    | nil => exact absurd h (List.not_lt_nil _)
    | cons d more =>
      rw [List.flatMap_cons, List.flatMap_cons]
      rcases List.cons_lt_cons_iff.mp h with hlt | ⟨rfl, hrest⟩
      · exact utf8EncodeChar_lt hlt _ _
      · exact List.append_left_lt (ih hrest)

/-- The order of texts is that of their bytes. -/
theorem bytes_lt_iff {s t : String} : bytes s < bytes t ↔ s < t := by
  have hmono {s t : String} (h : s < t) : bytes s < bytes t := by
    rw [bytes_eq, bytes_eq]
    exact flatMap_utf8EncodeChar_lt (String.lt_iff.mp h)
  refine ⟨fun h => ?_, hmono⟩
  by_contra hnot
  by_cases heq : s = t
  · subst heq
    exact List.lt_irrefl _ h
  · have hts : t < s := by
      by_contra hnot'
      exact heq (String.le_antisymm hnot' hnot)
    exact List.lt_asymm h (hmono hts)

end ReplicaLoad.Text

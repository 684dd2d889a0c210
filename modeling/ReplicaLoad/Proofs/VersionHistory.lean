-- Histories of versions. Versions are set one after another, for any types of
-- resources and with any texts. A text is accepted exactly if it is a number of
-- 64 bits in decimal digits, and for each type the number of the last text that
-- was accepted stays.
import Mathlib.Data.List.Induction
import ReplicaLoad.Proofs.StoredObjects

namespace ReplicaLoad

/-! ## Texts of numbers -/

namespace Text

/-- A text that stands for a number of 64 bits: decimal digits, with a plus sign in front of them
or none. There may be zeros before the other digits. -/
def IsWord (s : String) (n : Nat) : Prop :=
  ∃ sign digits, s.toList = sign ++ digits ∧ (sign = [] ∨ sign = ['+']) ∧ digits ≠ [] ∧
    (∀ c ∈ digits, c.isDigit = true) ∧ Nat.ofDigitChars 10 digits 0 = n ∧ n < UInt64.size

theorem wordBound_eq : wordBound = UInt64.size := by decide

variable {s : String} {n : Nat}

/-- Digits are read exactly if there is nothing else among them and their number fits. -/
theorem readWordDigits_eq_ok_iff {ds : List Char} {acc : Nat} (hacc : acc < wordBound) :
    readWordDigits acc ds = .ok n ↔
      (∀ c ∈ ds, c.isDigit = true) ∧ Nat.ofDigitChars 10 ds acc = n ∧ n < wordBound := by
  constructor
  · intro h
    induction ds generalizing acc with
    | nil =>
      obtain rfl : acc = n := by simpa [readWordDigits] using h
      exact ⟨by simp, by simp, hacc⟩
    | cons c rest ih =>
      unfold readWordDigits at h
      split at h
      · next hc =>
        dsimp only at h
        split at h
        · next hlt =>
          obtain ⟨hd, hn, hbound⟩ := ih hlt h
          refine ⟨?_, by rwa [Nat.ofDigitChars_cons], hbound⟩
          intro x hx
          rcases List.mem_cons.mp hx with rfl | hx
          · exact hc
          · exact hd x hx
        · cases h
      · cases h
  · rintro ⟨hd, rfl, hbound⟩
    exact readWordDigits_of_digits hd hbound

theorem readWord_eq_ok_iff : readWord s = .ok n ↔ IsWord s n := by
  have hzero : 0 < wordBound := by decide
  unfold readWord IsWord
  rw [← wordBound_eq]
  split
  · next hs =>
    -- the empty text has no digits
    simp only [reduceCtorEq, false_iff]
    rintro ⟨sign, digits, heq, -, hne, -⟩
    rw [hs] at heq
    exact hne (List.append_eq_nil_iff.mp heq.symm).2
  · next hs =>
    simp only [reduceCtorEq, false_iff]
    rintro ⟨sign, digits, heq, hsign, hne, hd, -⟩
    rw [hs] at heq
    rcases hsign with rfl | rfl
    · obtain rfl : ['+'] = digits := heq
      exact absurd (hd '+' List.mem_cons_self) (by decide)
    · exact hne (List.cons.inj heq).2.symm
  · next ds hne hs =>
    rw [readWordDigits_eq_ok_iff hzero]
    constructor
    · rintro ⟨hd, hn, hbound⟩
      exact ⟨['+'], ds, hs, .inr rfl, hne, hd, hn, hbound⟩
    · rintro ⟨sign, digits, heq, hsign, -, hd, hn, hbound⟩
      rw [hs] at heq
      rcases hsign with rfl | rfl
      · obtain rfl : '+' :: ds = digits := heq
        exact absurd (hd '+' List.mem_cons_self) (by decide)
      · obtain rfl : ds = digits := (List.cons.inj heq).2
        exact ⟨hd, hn, hbound⟩
  · next hne hplus hsigned =>
    rw [readWordDigits_eq_ok_iff hzero]
    constructor
    · rintro ⟨hd, hn, hbound⟩
      exact ⟨[], s.toList, rfl, .inl rfl, hne, hd, hn, hbound⟩
    · rintro ⟨sign, digits, heq, hsign, hdigits, hd, hn, hbound⟩
      rcases hsign with rfl | rfl
      · obtain rfl : s.toList = digits := heq
        exact ⟨hd, hn, hbound⟩
      · exact absurd heq (hsigned digits)

theorem IsWord.unique {n' : Nat} (h : IsWord s n) (h' : IsWord s n') : n = n' := by
  rw [← readWord_eq_ok_iff] at h h'
  exact Except.ok.inj (h.symm.trans h')

end Text

/-! ## One set -/

/-- A text that is set as the version of a type of resource. -/
abbrev VersionWrite := ResourceType × String

/-- A text for a type that stands for a number of 64 bits. -/
def VersionWrite.Sets (w : VersionWrite) (r : ResourceType) (n : Nat) : Prop :=
  w.1 = r ∧ Text.IsWord w.2 n

namespace VersionStore

/-- The versions after a set. A text that is no number of 64 bits changes nothing. -/
def set (s : VersionStore) (w : VersionWrite) : VersionStore :=
  match s.record w.1 w.2 with
  | .ok s => s
  | .error _ => s

variable {s : VersionStore} {r : ResourceType} {text : String} {n : Nat}

theorem record_of_isWord (h : Text.IsWord text n) : s.record r text = .ok (s.put r n) := by
  unfold record
  rw [Text.readWord_eq_ok_iff.mpr h]

/-- A set is refused with an error that says which text was refused, and for which type. -/
theorem record_of_not_isWord (h : ∀ n, ¬ Text.IsWord text n) :
    ∃ reason, s.record r text = .error ⟨r, text, reason⟩ := by
  unfold record
  split
  · next m hm => exact absurd (Text.readWord_eq_ok_iff.mp hm) (h m)
  · next fault _ => exact ⟨fault.message, rfl⟩

theorem exists_record_iff : (∃ s', s.record r text = .ok s') ↔ ∃ n, Text.IsWord text n := by
  constructor
  · rintro ⟨s', hs'⟩
    by_contra hnone
    obtain ⟨reason, hreason⟩ := record_of_not_isWord (s := s) (r := r) (not_exists.mp hnone)
    rw [hreason] at hs'
    cases hs'
  · rintro ⟨n, hn⟩
    exact ⟨s.put r n, record_of_isWord hn⟩

theorem set_of_isWord (h : Text.IsWord text n) : s.set (r, text) = s.put r n := by
  unfold set
  rw [record_of_isWord h]

theorem set_of_not_isWord (h : ∀ n, ¬ Text.IsWord text n) : s.set (r, text) = s := by
  obtain ⟨reason, hreason⟩ := record_of_not_isWord (s := s) (r := r) h
  unfold set
  rw [hreason]

theorem get?_set_self {w : VersionWrite} (h : w.Sets r n) : (s.set w).get? r = some n := by
  obtain ⟨rfl, hw⟩ := h
  rw [set_of_isWord hw, Table.get?_put, if_pos rfl]

/-- A set that is refused, or that is for another type, leaves the version of a type as it is. -/
theorem get?_set_other {w : VersionWrite} (h : ∀ n, ¬ w.Sets r n) :
    (s.set w).get? r = s.get? r := by
  by_cases hw : ∃ n, Text.IsWord w.2 n
  · obtain ⟨n, hn⟩ := hw
    have hr : w.1 ≠ r := fun hr => h n ⟨hr, hn⟩
    rw [set_of_isWord hn, Table.get?_put, if_neg hr]
  · rw [set_of_not_isWord (not_exists.mp hw)]

end VersionStore

/-! ## Sets one after another -/

/-- No text of a history is accepted for a type. -/
def NeverAccepted (r : ResourceType) (history : List VersionWrite) : Prop :=
  ∀ w ∈ history, ∀ n, ¬ w.Sets r n

/-- The last text of a history that is accepted for a type stands for a number. -/
def LastAccepted (r : ResourceType) (history : List VersionWrite) (n : Nat) : Prop :=
  ∃ before w after, history = before ++ w :: after ∧ w.Sets r n ∧ NeverAccepted r after

variable {r : ResourceType} {history : List VersionWrite} {w : VersionWrite} {n m : Nat}

theorem neverAccepted_append :
    NeverAccepted r (history ++ [w]) ↔ NeverAccepted r history ∧ ∀ n, ¬ w.Sets r n := by
  unfold NeverAccepted
  rw [List.forall_mem_append, List.forall_mem_singleton]

/-- A text that is accepted is the last one, whatever was set before it. One that is refused leaves
the last one as it is. -/
theorem lastAccepted_append :
    LastAccepted r (history ++ [w]) n ↔
      w.Sets r n ∨ LastAccepted r history n ∧ ∀ m, ¬ w.Sets r m := by
  constructor
  · rintro ⟨before, w', after, heq, hw', hafter⟩
    rcases List.eq_nil_or_concat after with rfl | ⟨after, last, rfl⟩
    · obtain ⟨-, hw⟩ := List.append_inj' heq rfl
      obtain rfl : w = w' := List.singleton_inj.mp hw
      exact .inl hw'
    · rw [List.concat_eq_append] at heq hafter
      rw [← List.cons_append, ← List.append_assoc] at heq
      obtain ⟨hbefore, hw⟩ := List.append_inj' heq rfl
      obtain rfl : w = last := List.singleton_inj.mp hw
      obtain ⟨hafter, hrefused⟩ := neverAccepted_append.mp hafter
      exact .inr ⟨⟨before, w', after, hbefore, hw', hafter⟩, hrefused⟩
  · rintro (h | ⟨⟨before, w', after, rfl, hw', hafter⟩, hrefused⟩)
    · exact ⟨history, w, [], rfl, h, fun _ hw => absurd hw List.not_mem_nil⟩
    · exact ⟨before, w', after ++ [w], by simp, hw',
        neverAccepted_append.mpr ⟨hafter, hrefused⟩⟩

namespace VersionStore

/-- The versions that a history leaves behind. -/
def after (history : List VersionWrite) : VersionStore := history.foldl set Table.empty

theorem after_append (history : List VersionWrite) (w : VersionWrite) :
    after (history ++ [w]) = (after history).set w := by
  simp [after, List.foldl_append]

theorem get?_after_eq_some_iff : (after history).get? r = some n ↔ LastAccepted r history n := by
  induction history using List.reverseRecOn with
  | nil => simp [after, LastAccepted]
  | append_singleton history w ih =>
    rw [after_append, lastAccepted_append, ← ih]
    by_cases h : ∃ m, w.Sets r m
    · obtain ⟨m, hm⟩ := h
      rw [get?_set_self hm, Option.some_inj]
      constructor
      · rintro rfl
        exact .inl hm
      · rintro (hn | ⟨-, hrefused⟩)
        · exact hm.2.unique hn.2
        · exact absurd hm (hrefused m)
    · have hrefused := not_exists.mp h
      rw [get?_set_other hrefused]
      simp [hrefused]

theorem get?_after_eq_none_iff : (after history).get? r = none ↔ NeverAccepted r history := by
  induction history using List.reverseRecOn with
  | nil => simp [after, NeverAccepted]
  | append_singleton history w ih =>
    rw [after_append, neverAccepted_append]
    by_cases h : ∃ m, w.Sets r m
    · obtain ⟨m, hm⟩ := h
      rw [get?_set_self hm]
      simp only [reduceCtorEq, false_iff, not_and]
      exact fun _ hnone => hnone m hm
    · rw [get?_set_other (not_exists.mp h), ih]
      exact (and_iff_left (not_exists.mp h)).symm

end VersionStore

/-- A text is accepted exactly if it stands for a number of 64 bits. After any history of sets the
version of a type is the number of the last text that was accepted for it, and there is none if none
was accepted. A text that is refused changes nothing, and the error names it. The decimal text of
every number of 64 bits is accepted, and the number reads back. -/
theorem last_versions_kept (history : List VersionWrite) :
    (∀ (s : VersionStore) r text, (∃ s', s.record r text = .ok s') ↔ ∃ n, Text.IsWord text n) ∧
    (∀ r n, (VersionStore.after history).get? r = some n ↔ LastAccepted r history n) ∧
    (∀ r, (VersionStore.after history).get? r = none ↔ NeverAccepted r history) ∧
    (∀ (s : VersionStore) r text, (∀ n, ¬ Text.IsWord text n) → s.set (r, text) = s ∧
      ∃ reason, s.record r text = .error ⟨r, text, reason⟩) ∧
    ∀ r (n : UInt64), Text.IsWord (toString n) n.toNat ∧
      (VersionStore.after (history ++ [(r, toString n)])).get? r = some n.toNat := by
  refine ⟨fun s r text => VersionStore.exists_record_iff,
    fun r n => VersionStore.get?_after_eq_some_iff, fun r => VersionStore.get?_after_eq_none_iff,
    fun s r text h => ⟨VersionStore.set_of_not_isWord h, VersionStore.record_of_not_isWord h⟩, ?_⟩
  intro r n
  have hword : Text.IsWord (toString n) n.toNat :=
    Text.readWord_eq_ok_iff.mp (Text.readWord_toString n)
  refine ⟨hword, ?_⟩
  rw [VersionStore.after_append]
  exact VersionStore.get?_set_self ⟨rfl, hword⟩

/-- The greatest version that there is, with a sign and zeros, and texts that are refused. -/
def sampleWrites : List VersionWrite :=
  [(⟨"A", ""⟩, "5"), (⟨"A", ""⟩, "+0018446744073709551615"), (⟨"B", ""⟩, "-1"),
    (⟨"A", ""⟩, "18446744073709551616")]

theorem last_versions_kept_sampleWrites :
    LastAccepted ⟨"A", ""⟩ sampleWrites 18446744073709551615 ∧
    NeverAccepted ⟨"B", ""⟩ sampleWrites ∧
    (∀ n, ¬ Text.IsWord "18446744073709551616" n) ∧
    (VersionStore.after sampleWrites).set (⟨"B", ""⟩, "18446744073709551616") =
      VersionStore.after sampleWrites := by
  obtain ⟨-, hlast, hnever, hrefused, -⟩ := last_versions_kept sampleWrites
  have hlarge : ∀ n, ¬ Text.IsWord "18446744073709551616" n := by
    intro n hn
    have hread : Text.readWord "18446744073709551616" = .error .tooLarge := by decide +kernel
    rw [Text.readWord_eq_ok_iff.mpr hn] at hread
    cases hread
  exact ⟨(hlast _ _).mp (by decide +kernel), (hnever _).mp (by decide +kernel), hlarge,
    (hrefused _ _ _ hlarge).1⟩

end ReplicaLoad

-- Settled tokens. The tokens that a lexer has read are not changed any more,
-- but for the tokens of a key that are put in front of its candidate. So tokens
-- that all candidates stand behind are settled: whatever comes later, they stay
-- at the beginning.
import ReplicaLoad.Yaml.Lexer
import Mathlib.Data.List.InsertIdx

namespace ReplicaLoad.Yaml

/-! ## Insertions -/

theorem toList_insertIdxIfInBounds {α : Type} (as : Array α) (i : Nat) (a : α) :
    (as.insertIdxIfInBounds i a).toList = as.toList.insertIdx i a := by
  unfold Array.insertIdxIfInBounds
  split
  · exact Array.toList_insertIdx _
  · rename_i h
    rw [List.insertIdx_of_length_lt (by simpa using h)]

theorem prefix_insertIdx {α : Type} {ts as : List α} (h : ts <+: as) {i : Nat}
    (hi : ts.length ≤ i) (a : α) : ts <+: as.insertIdx i a := by
  induction ts generalizing as i with
  | nil => exact List.nil_prefix
  | cons t rest ih =>
    obtain ⟨more, rfl⟩ := h
    obtain ⟨n, rfl⟩ : ∃ n, i = n + 1 := ⟨i - 1, by rw [List.length_cons] at hi; omega⟩
    rw [List.cons_append, List.insertIdx_succ_cons, List.prefix_cons_inj]
    exact ih (List.prefix_append _ _) (by simpa using hi)

theorem map_of_mapM {α β : Type} {f : α → Option β} {as : List α} {bs : List β}
    (h : as.mapM f = some bs) : as.map f = bs.map some := by
  induction as generalizing bs with
  | nil =>
    cases h
    rfl
  | cons a rest ih =>
    rw [List.mapM_cons] at h
    obtain ⟨b, hb, h⟩ := Option.bind_eq_some_iff.mp h
    obtain ⟨bs', hbs', h⟩ := Option.bind_eq_some_iff.mp h
    cases h
    rw [List.map_cons, List.map_cons, hb, ih hbs']

namespace Lexer

/-- Tokens that all candidates stand behind. -/
structure Keeps (ts : List Token) (l : Lexer) : Prop where
  tokens : ts <+: l.tokens.toList
  candidates : ∀ k, some k ∈ l.candidates → ts.length ≤ k.position

variable {ts : List Token} {l l' : Lexer}

/-! ## Parts of a step -/

theorem Keeps.congr (h : l.Keeps ts) (ht : l'.tokens = l.tokens)
    (hc : ∀ k, some k ∈ l'.candidates → some k ∈ l.candidates) : l'.Keeps ts where
  tokens := ht ▸ h.tokens
  candidates := fun k hk => h.candidates k (hc k hk)

theorem Keeps.emit (h : l.Keeps ts) (t : Token) : (l.emit t).Keeps ts where
  tokens := by
    change ts <+: (l.tokens.push t).toList
    rw [Array.toList_push]
    exact h.tokens.trans (List.prefix_append _ _)
  candidates := h.candidates

theorem Keeps.moveTo (h : l.Keeps ts) (c : Cursor) : (l.moveTo c).Keeps ts :=
  h.congr rfl fun _ hk => hk

theorem Keeps.allowKey (h : l.Keeps ts) (allowed : Bool) : (l.allowKey allowed).Keeps ts :=
  h.congr rfl fun _ hk => hk

theorem Keeps.insert (h : l.Keeps ts) {position : Nat} (hp : ts.length ≤ position) (t : Token) :
    Keeps ts { l with tokens := l.tokens.insertIdxIfInBounds position t } where
  tokens := by
    rw [toList_insertIdxIfInBounds]
    exact prefix_insertIdx h.tokens hp t
  candidates := h.candidates

theorem Keeps.length_le (h : l.Keeps ts) : ts.length ≤ l.tokens.size := by
  rw [← Array.length_toList]
  exact h.tokens.length_le

theorem Keeps.passSpace (h : l.Keeps ts) (fuel : Nat) : (l.passSpace fuel).Keeps ts := by
  induction fuel generalizing l with
  | zero => exact h
  | succ fuel ih =>
    unfold Lexer.passSpace
    extract_lets c c'
    split
    · exact ih ((h.moveTo _).allowKey _)
    · exact h.moveTo _

theorem Keeps.dropStale (h : l.Keeps ts) (hl : l.dropStale = some l') : l'.Keeps ts := by
  unfold Lexer.dropStale at hl
  obtain ⟨candidates, hc, hl⟩ := Option.bind_eq_some_iff.mp hl
  cases hl
  refine h.congr rfl fun k hk => ?_
  have hmem := List.mem_map_of_mem (f := some) hk
  rw [← map_of_mapM hc] at hmem
  obtain ⟨k', hk', hkeep⟩ := List.mem_map.mp hmem
  -- a candidate that is kept is kept as it is
  cases k' with
  | none => cases hkeep
  | some k' =>
    dsimp only at hkeep
    split at hkeep
    · split at hkeep <;> cases hkeep
    · cases hkeep
      exact hk'

theorem Keeps.dropCandidate (h : l.Keeps ts) (hl : l.dropCandidate = some l') : l'.Keeps ts := by
  unfold Lexer.dropCandidate at hl
  split at hl
  · rename_i k rest hc
    split at hl
    · cases hl
    · cases hl
      refine h.congr rfl fun k hk => ?_
      rw [hc]
      rcases List.mem_cons.mp hk with hk | hk
      · cases hk
      · exact List.mem_cons_of_mem _ hk
  · cases hl
    exact h

theorem Keeps.addCandidate (h : l.Keeps ts) (hl : l.addCandidate = some l') : l'.Keeps ts := by
  unfold Lexer.addCandidate at hl
  split at hl
  · obtain ⟨l₁, h₁, hl⟩ := Option.bind_eq_some_iff.mp hl
    cases hl
    have hk₁ := h.dropCandidate h₁
    refine ⟨hk₁.tokens, fun k hk => ?_⟩
    rcases List.mem_cons.mp hk with hk | hk
    · cases hk
      exact hk₁.length_le
    · exact hk₁.candidates k (List.mem_of_mem_drop hk)
  · cases hl
    exact h

theorem Keeps.openBlock (h : l.Keeps ts) (column : Nat) {position : Nat}
    (hp : ts.length ≤ position) (t : Token) : (l.openBlock column position t).Keeps ts := by
  unfold Lexer.openBlock
  split
  · exact (h.insert hp t).congr rfl fun _ hk => hk
  · exact h

theorem Keeps.closeBlocksAfter (h : l.Keeps ts) (column : Int) (outer : List Int) :
    (l.closeBlocksAfter column outer).Keeps ts := by
  induction outer generalizing l with
  | nil => exact h
  | cons next outer ih =>
    unfold Lexer.closeBlocksAfter
    split
    · exact ih ((h.emit .blockEnd).congr rfl fun _ hk => hk)
    · exact h

theorem Keeps.closeBlocks (h : l.Keeps ts) (column : Int) : (l.closeBlocks column).Keeps ts := by
  unfold Lexer.closeBlocks
  split
  · exact h
  · exact h.closeBlocksAfter _ _

/-! ## One token -/

theorem Keeps.openFlow {t : Token} (h : l.Keeps ts) (hl : l.openFlow t = some l') :
    l'.Keeps ts := by
  unfold Lexer.openFlow at hl
  obtain ⟨l₁, h₁, hl⟩ := Option.bind_eq_some_iff.mp hl
  cases hl
  have hk₁ := h.addCandidate h₁
  have hopened : Keeps ts { l₁ with candidates := none :: l₁.candidates } := by
    refine hk₁.congr rfl fun k hk => ?_
    rcases List.mem_cons.mp hk with hk | hk
    · cases hk
    · exact hk
  exact ((hopened.allowKey _).emit t).moveTo _

theorem Keeps.closeFlow {t : Token} (h : l.Keeps ts) (hl : l.closeFlow t = some l') :
    l'.Keeps ts := by
  unfold Lexer.closeFlow at hl
  obtain ⟨l₁, h₁, hl⟩ := Option.bind_eq_some_iff.mp hl
  cases hl
  have hk₁ := h.dropCandidate h₁
  refine (Keeps.emit (Keeps.allowKey (hk₁.congr ?_ fun k hk => ?_) _) t).moveTo _
  · rfl
  · dsimp only at hk
    split at hk
    · rename_i hc
      rw [hc]
      exact hk
    · rename_i hc
      rw [hc]
      exact List.mem_cons_of_mem _ hk
    · cases hk

theorem Keeps.blockEntry (h : l.Keeps ts) (hl : l.blockEntry = some l') : l'.Keeps ts := by
  unfold Lexer.blockEntry at hl
  split at hl
  · cases hl
  · obtain ⟨l₁, h₁, hl⟩ := Option.bind_eq_some_iff.mp hl
    cases hl
    exact ((((h.openBlock _ h.length_le _).dropCandidate h₁).allowKey _).emit _).moveTo _

theorem Keeps.explicitKey (h : l.Keeps ts) (hl : l.explicitKey = some l') : l'.Keeps ts := by
  unfold Lexer.explicitKey at hl
  split at hl
  · cases hl
  · obtain ⟨l₁, h₁, hl⟩ := Option.bind_eq_some_iff.mp hl
    cases hl
    exact ((((h.openBlock _ h.length_le _).dropCandidate h₁).allowKey _).emit _).moveTo _

/-- The tokens of a key are put in front of its candidate, behind what is settled. -/
theorem Keeps.valueMark (h : l.Keeps ts) (hl : l.valueMark = some l') : l'.Keeps ts := by
  unfold Lexer.valueMark at hl
  split at hl
  · rename_i k rest hc
    cases hl
    have hp : ts.length ≤ k.position := h.candidates k (by rw [hc]; exact List.mem_cons_self)
    have hkey : Keeps ts { l with
        candidates := none :: rest
        tokens := l.tokens.insertIdxIfInBounds k.position .key } := by
      refine (h.insert hp .key).congr rfl fun k' hk' => ?_
      change some k' ∈ l.candidates
      rw [hc]
      rcases List.mem_cons.mp hk' with hk' | hk'
      · cases hk'
      · exact List.mem_cons_of_mem _ hk'
    exact (((hkey.openBlock _ hp _).allowKey _).emit _).moveTo _
  · split at hl
    · cases hl
    · cases hl
      exact (((h.openBlock _ h.length_le _).allowKey _).emit _).moveTo _

theorem Keeps.outside (h : l.Keeps ts) (hl : l.outside = some l') : l'.Keeps ts := by
  unfold Lexer.outside at hl
  obtain ⟨l₁, h₁, hl⟩ := Option.bind_eq_some_iff.mp hl
  cases hl
  exact ((h.closeBlocks _).dropCandidate h₁).allowKey _

theorem Keeps.keyToken {read : Cursor → Option (Token × Cursor)} (h : l.Keeps ts)
    (hl : l.keyToken read = some l') : l'.Keeps ts := by
  unfold Lexer.keyToken at hl
  obtain ⟨l₁, h₁, hl⟩ := Option.bind_eq_some_iff.mp hl
  obtain ⟨⟨t, c⟩, -, hl⟩ := Option.bind_eq_some_iff.mp hl
  cases hl
  exact (((h.addCandidate h₁).allowKey _).emit _).moveTo _

theorem Keeps.plainScalar (h : l.Keeps ts) (hl : l.plainScalar = some l') : l'.Keeps ts := by
  unfold Lexer.plainScalar at hl
  obtain ⟨l₁, h₁, hl⟩ := Option.bind_eq_some_iff.mp hl
  obtain ⟨⟨text, broken, c⟩, -, hl⟩ := Option.bind_eq_some_iff.mp hl
  cases hl
  exact (((h.addCandidate h₁).allowKey _).emit _).moveTo _

theorem Keeps.blockScalar {literal : Bool} (h : l.Keeps ts)
    (hl : l.blockScalar literal = some l') : l'.Keeps ts := by
  unfold Lexer.blockScalar at hl
  obtain ⟨l₁, h₁, hl⟩ := Option.bind_eq_some_iff.mp hl
  obtain ⟨⟨text, c⟩, -, hl⟩ := Option.bind_eq_some_iff.mp hl
  cases hl
  exact (((h.dropCandidate h₁).allowKey _).emit _).moveTo _

/-- A choice settles what both of its branches settle. -/
theorem keeps_ite {c : Prop} [Decidable c] {a b : Option Lexer}
    (ha : ∀ l', a = some l' → l'.Keeps ts) (hb : ∀ l', b = some l' → l'.Keeps ts) :
    ∀ l', (if c then a else b) = some l' → l'.Keeps ts := by
  intro l' hl
  by_cases hc : c
  · exact ha l' (by rwa [if_pos hc] at hl)
  · exact hb l' (by rwa [if_neg hc] at hl)

/-- No step changes tokens that are settled. -/
theorem Keeps.next (h : l.Keeps ts) : ∀ l', l.next = some l' → l'.Keeps ts := by
  intro l' hl
  unfold Lexer.next at hl
  obtain ⟨l₁, h₁, hnext⟩ := Option.bind_eq_some_iff.mp hl
  have hk := ((h.passSpace _).dropStale h₁).closeBlocks l₁.cursor.column
  clear hl
  revert l'
  generalize l₁.closeBlocks l₁.cursor.column = l₁ at hk
  dsimp only
  cases l₁.cursor.peek with
  | none =>
    intro l' hl
    obtain ⟨l₂, h₂, hl⟩ := Option.bind_eq_some_iff.mp hl
    cases hl
    exact (hk.outside h₂).emit _
  | some x =>
    dsimp only
    refine keeps_ite (fun l' hl => ?_) ?_
    · obtain ⟨l₂, h₂, hl⟩ := Option.bind_eq_some_iff.mp hl
      obtain ⟨⟨t, c⟩, -, hl⟩ := Option.bind_eq_some_iff.mp hl
      cases hl
      exact ((hk.outside h₂).emit t).moveTo c
    refine keeps_ite (fun l' hl => ?_) ?_
    · obtain ⟨l₂, h₂, hl⟩ := Option.bind_eq_some_iff.mp hl
      cases hl
      exact ((hk.outside h₂).emit _).moveTo _
    refine keeps_ite (fun _ hl => hk.openFlow hl) ?_
    refine keeps_ite (fun _ hl => hk.openFlow hl) ?_
    refine keeps_ite (fun _ hl => hk.closeFlow hl) ?_
    refine keeps_ite (fun _ hl => hk.closeFlow hl) ?_
    refine keeps_ite (fun l' hl => ?_) ?_
    · obtain ⟨l₂, h₂, hl⟩ := Option.bind_eq_some_iff.mp hl
      cases hl
      exact (((hk.dropCandidate h₂).allowKey _).emit _).moveTo _
    refine keeps_ite (fun _ hl => hk.blockEntry hl) ?_
    refine keeps_ite (fun _ hl => hk.explicitKey hl) ?_
    refine keeps_ite (fun _ hl => hk.valueMark hl) ?_
    refine keeps_ite (fun _ hl => hk.keyToken hl) ?_
    refine keeps_ite (fun _ hl => hk.keyToken hl) ?_
    refine keeps_ite (fun _ hl => hk.keyToken hl) ?_
    refine keeps_ite (fun _ hl => hk.blockScalar hl) ?_
    refine keeps_ite (fun _ hl => hk.blockScalar hl) ?_
    refine keeps_ite (fun _ hl => hk.keyToken hl) ?_
    refine keeps_ite (fun _ hl => hk.keyToken hl) ?_
    exact keeps_ite (fun _ hl => hk.plainScalar hl) fun _ hl => nomatch hl

/-- Settled tokens are the first ones of the whole text. -/
theorem Keeps.readAll (h : l.Keeps ts) {fuel : Nat} {tokens : List Token}
    (hr : l.readAll fuel = some tokens) : ts <+: tokens := by
  induction fuel generalizing l with
  | zero => cases hr
  | succ fuel ih =>
    unfold Lexer.readAll at hr
    obtain ⟨l₁, h₁, hr⟩ := Option.bind_eq_some_iff.mp hr
    split at hr
    · cases hr
      exact (h.next l₁ h₁).tokens
    · exact ih (h.next l₁ h₁) hr

end Lexer

end ReplicaLoad.Yaml

-- The files of summaries. An emission writes its summaries one after another
-- into one folder, each into a file that is named for the summary, the test and
-- the time. Every summary of an emission is written or recorded as an error,
-- but a later write to the same file takes the place of an earlier one without
-- a trace. So the written summaries are all kept exactly when no two of them go
-- to one file: for plain names, when no two of one name are written at one
-- time.
import Mathlib.Data.List.Nodup
import ReplicaLoad.Proofs.FileWrites
import ReplicaLoad.Proofs.ReplicaNames
import ReplicaLoad.Run.Test

namespace ReplicaLoad

/-- A summary that has been written: its name, the time of the write, and the text. -/
structure WrittenSummary where
  name : String
  stamp : String
  text : String
  deriving DecidableEq

def WrittenSummary.path (folder test : String) (w : WrittenSummary) : String :=
  FileTree.join folder (summaryFile w.name test w.stamp)

/-- The place of the file that a summary has been written to. -/
def WrittenSummary.destination (folder test : String) (w : WrittenSummary) : List String :=
  FileTree.destination (w.path folder test)

/-- The summaries that an emission prints and writes without an error, in the order of the writes. -/
def written (folder test : String) (stamp : Nat → String) (files : FileTree) (index : Nat) :
    List Summary → List WrittenSummary
  | [] => []
  | summary :: rest =>
    match summary.printed with
    | .text text =>
      let w : WrittenSummary := ⟨summary.name, stamp index, text⟩
      let files' := (files.write (w.path folder test) text).toOption
      let others := written folder test stamp (files'.getD files) (index + 1) rest
      if files'.isSome then w :: others else others
    | .fails _ => written folder test stamp files (index + 1) rest
    | .crashes _ => []

/-- Each of some summaries is in a file of its own, with its own text. -/
structure Kept (folder test : String) (files : FileTree) (ws : List WrittenSummary) : Prop where
  texts : ∀ w ∈ ws, files.read (w.path folder test) = .ok w.text
  own : (ws.map fun w => files.find (w.path folder test)).Nodup

/-- Writes of summaries that succeed one after another, from one tree to another. -/
inductive WritesAll (folder test : String) : FileTree → List WrittenSummary → FileTree → Prop where
  | done (files : FileTree) : WritesAll folder test files [] files
  | next {files files' last : FileTree} {w : WrittenSummary} {rest : List WrittenSummary}
    (first : files.write (w.path folder test) w.text = .ok files')
    (others : WritesAll folder test files' rest last) :
    WritesAll folder test files (w :: rest) last

section Writes

variable {folder test : String} {files last : FileTree} {ws : List WrittenSummary}

theorem WritesAll.grows (h : WritesAll folder test files ws last) : files.Grows last := by
  induction h with
  | done => exact .refl _
  | next first _ ih => exact (FileTree.grows_of_write first).trans ih

theorem WritesAll.find (h : WritesAll folder test files ws last) {w : WrittenSummary}
    (hw : w ∈ ws) : last.find (w.path folder test) = .ok (w.destination folder test) := by
  induction h with
  | done => cases hw
  | next first others ih =>
    rcases List.mem_cons.mp hw with rfl | hw
    · exact FileTree.find_of_write first others.grows
    · exact ih hw

/-- What no write goes to is as it was. -/
theorem WritesAll.entry?_of_notMem (h : WritesAll folder test files ws last) {place : List String}
    (hplace : place ∉ ws.map (·.destination folder test)) :
    last.entry? place = files.entry? place := by
  induction h with
  | done => rfl
  | next first _ ih =>
    obtain ⟨hne, hrest⟩ := List.ne_and_not_mem_of_not_mem_cons hplace
    rw [ih hrest, FileTree.entry?_write first]
    exact if_neg (Ne.symm hne)

/-- The last write to a place decides what a reader finds there. -/
theorem WritesAll.read_of_last {before after : List WrittenSummary} {w : WrittenSummary}
    (h : WritesAll folder test files (before ++ w :: after) last)
    (hlast : w.destination folder test ∉ after.map (·.destination folder test)) :
    last.read (w.path folder test) = .ok w.text := by
  induction before generalizing files with
  | nil =>
    have hfind := h.find (List.mem_cons_self ..)
    cases h with
    | next first others =>
      -- the writes behind this one go elsewhere
      refine FileTree.read_eq_ok hfind ?_
      rw [others.entry?_of_notMem hlast, FileTree.entry?_write first]
      exact if_pos rfl
  | cons earlier before ih =>
    cases h with
    | next _ others => exact ih others

/-- Written summaries are kept exactly when no two of them go to one place. -/
theorem WritesAll.kept_iff (h : WritesAll folder test files ws last) :
    Kept folder test last ws ↔ (ws.map (·.destination folder test)).Nodup := by
  have hfound : (ws.map fun w => last.find (w.path folder test)) =
      (ws.map (·.destination folder test)).map .ok := by
    rw [List.map_map]
    exact List.map_congr_left fun w hw => h.find hw
  have hnodup : (ws.map fun w => last.find (w.path folder test)).Nodup ↔
      (ws.map (·.destination folder test)).Nodup := by
    rw [hfound]
    exact List.nodup_map_iff fun _ _ => Except.ok.inj
  refine ⟨fun hkept => hnodup.mp hkept.own, fun hplaces => ⟨fun w hw => ?_, hnodup.mpr hplaces⟩⟩
  -- without repeated places every write is the last one to its place
  obtain ⟨before, after, rfl⟩ := List.append_of_mem hw
  refine h.read_of_last ?_
  rw [List.map_append, List.map_cons] at hplaces
  exact (List.nodup_cons.mp (List.nodup_append.mp hplaces).2.1).1

end Writes

/-! ## An emission -/

/-- What becomes of the summaries of an emission, one after another: what is written, the files at
the end, and how the emission ends. -/
inductive Emits (folder test : String) (stamp : Nat → String) :
    SummaryRun → Nat → List Summary → List WrittenSummary → FileTree → Emission → Prop where
  | done (s : SummaryRun) (index : Nat) :
    Emits folder test stamp s index [] [] s.files (.finished s.errors)
  | writes {s : SummaryRun} {index : Nat} {summary : Summary} {rest : List Summary} {text : String}
    {ws : List WrittenSummary} {files last : FileTree} {e : Emission}
    (hp : summary.printed = .text text)
    (first : s.files.write (WrittenSummary.path folder test ⟨summary.name, stamp index, text⟩)
      text = .ok files)
    (others : Emits folder test stamp { s with files } (index + 1) rest ws last e) :
    Emits folder test stamp s index (summary :: rest)
      (⟨summary.name, stamp index, text⟩ :: ws) last e
  | refused {s : SummaryRun} {index : Nat} {summary : Summary} {rest : List Summary}
    {text : String} {fault : FileFault} {ws : List WrittenSummary} {last : FileTree} {e : Emission}
    (hp : summary.printed = .text text)
    (first : s.files.write (WrittenSummary.path folder test ⟨summary.name, stamp index, text⟩)
      text = .error fault)
    (others : Emits folder test stamp
      { s with errors := s.errors.append (.summaryWrite
        (WrittenSummary.path folder test ⟨summary.name, stamp index, text⟩)) }
      (index + 1) rest ws last e) :
    Emits folder test stamp s index (summary :: rest) ws last e
  | unprinted {s : SummaryRun} {index : Nat} {summary : Summary} {rest : List Summary}
    {reason : MeasurementError} {ws : List WrittenSummary} {last : FileTree} {e : Emission}
    (hp : summary.printed = .fails reason)
    (others : Emits folder test stamp
      { s with errors := s.errors.append (.summaryPrint summary.name reason) }
      (index + 1) rest ws last e) :
    Emits folder test stamp s index (summary :: rest) ws last e
  | crashes {s : SummaryRun} {index : Nat} {summary : Summary} {rest : List Summary}
    {reason : String} (hp : summary.printed = .crashes reason) :
    Emits folder test stamp s index (summary :: rest) [] s.files (.crashed reason)

section Emission

variable {folder test : String} {stamp : Nat → String}

theorem SummaryRun.write_of_ok {s : SummaryRun} {w : WrittenSummary} {files : FileTree}
    (h : s.files.write (w.path folder test) w.text = .ok files) :
    s.write (some folder) (summaryFile w.name test w.stamp) w.text = { s with files } := by
  unfold WrittenSummary.path at h
  unfold write
  simp only [h]

theorem SummaryRun.write_of_error {s : SummaryRun} {w : WrittenSummary} {fault : FileFault}
    (h : s.files.write (w.path folder test) w.text = .error fault) :
    s.write (some folder) (summaryFile w.name test w.stamp) w.text =
      { s with errors := s.errors.append (.summaryWrite (w.path folder test)) } := by
  unfold WrittenSummary.path at h ⊢
  unfold write
  simp only [h]

theorem emits_emitFrom (folder test : String) (stamp : Nat → String) (s : SummaryRun) (index : Nat)
    (summaries : List Summary) :
    Emits folder test stamp s index summaries (written folder test stamp s.files index summaries)
      (emitFrom (some folder) test stamp s index summaries).1
      (emitFrom (some folder) test stamp s index summaries).2 := by
  induction summaries generalizing s index with
  | nil => exact .done s index
  | cons summary rest ih =>
    cases hp : summary.printed with
    | text text =>
      simp only [emitFrom, written, hp]
      cases h : s.files.write (WrittenSummary.path folder test ⟨summary.name, stamp index, text⟩)
        text with
      | ok files =>
        rw [SummaryRun.write_of_ok h]
        exact .writes hp h (ih { s with files } (index + 1))
      | error fault =>
        rw [SummaryRun.write_of_error h]
        exact .refused hp h (ih { s with errors := s.errors.append _ } (index + 1))
    | fails reason =>
      simp only [emitFrom, written, hp]
      exact .unprinted hp (ih { s with errors := s.errors.append _ } (index + 1))
    | crashes reason =>
      simp only [emitFrom, written, hp]
      exact .crashes hp

variable {s : SummaryRun} {index : Nat} {summaries : List Summary} {ws : List WrittenSummary}
  {last : FileTree} {e : Emission}

/-- What an emission leaves in the files comes from its writes, one after another. -/
theorem Emits.writesAll (h : Emits folder test stamp s index summaries ws last e) :
    WritesAll folder test s.files ws last := by
  induction h with
  | done => exact .done _
  | writes _ first _ ih => exact .next first ih
  | refused _ _ _ ih => exact ih
  | unprinted _ _ ih => exact ih
  | crashes => exact .done _

theorem ErrorList.size_append (l : ErrorList) (e : RunError) : (l.append e).size = l.size + 1 := by
  simp [append, size]

/-- Every summary of an emission that comes to its end is written or recorded as an error. -/
theorem Emits.length_written (h : Emits folder test stamp s index summaries ws last e)
    {errors : ErrorList} (he : e = .finished errors) :
    ws.length + errors.size = s.errors.size + summaries.length := by
  induction h with
  | done =>
    cases he
    exact Nat.zero_add _
  | writes _ _ _ ih =>
    have := ih he
    dsimp only at this
    simp only [List.length_cons]
    omega
  | refused _ _ _ ih =>
    have := ih he
    simp only [ErrorList.size_append, List.length_cons] at this ⊢
    omega
  | unprinted _ _ ih =>
    have := ih he
    simp only [ErrorList.size_append, List.length_cons] at this ⊢
    omega
  | crashes => cases he

/-- What is written comes from one of the summaries, at one of the times. -/
theorem Emits.mem (h : Emits folder test stamp s index summaries ws last e) {w : WrittenSummary}
    (hw : w ∈ ws) : (∃ summary ∈ summaries, summary.name = w.name) ∧ ∃ i, stamp i = w.stamp := by
  -- a summary behind the first one is a summary of the emission, whatever becomes of the first
  have later {summary : Summary} {rest : List Summary}
      (h : (∃ found ∈ rest, found.name = w.name) ∧ ∃ i, stamp i = w.stamp) :
      (∃ found ∈ summary :: rest, found.name = w.name) ∧ ∃ i, stamp i = w.stamp := by
    obtain ⟨⟨found, hs, hname⟩, hstamp⟩ := h
    exact ⟨⟨found, List.mem_cons_of_mem _ hs, hname⟩, hstamp⟩
  induction h with
  | done => cases hw
  | writes _ _ _ ih =>
    rcases List.mem_cons.mp hw with rfl | hw
    · exact ⟨⟨_, List.mem_cons_self .., rfl⟩, _, rfl⟩
    · exact later (ih hw)
  | refused _ _ _ ih => exact later (ih hw)
  | unprinted _ _ ih => exact later (ih hw)
  | crashes => cases hw

end Emission

/-! ## Names of files -/

theorem toList_summaryFile (name test stamp : String) :
    (summaryFile name test stamp).toList =
      name.toList ++ '_' :: test.toList ++ '_' :: (stamp.toList ++ ".txt".toList) := by
  simp [summaryFile, toString]

/-- The name and the time of a summary can be read off the name of its file. -/
theorem summaryFile_inj {a b test r s : String} (hr : '_' ∉ r.toList) (hs : '_' ∉ s.toList) :
    summaryFile a test r = summaryFile b test s ↔ a = b ∧ r = s := by
  refine ⟨fun h => ?_, fun ⟨ha, hr⟩ => by rw [ha, hr]⟩
  have hl := congrArg String.toList h
  rw [toList_summaryFile, toList_summaryFile] at hl
  -- the time has no underscore, so the last one stands before it
  obtain ⟨hname, hstamp⟩ := last_separator_unique hl (by simp [hr]) (by simp [hs])
  exact ⟨String.toList_inj.mp (List.append_cancel_right hname),
    String.toList_inj.mp (List.append_cancel_right hstamp)⟩

/-- No name has a slash, so that every file is in the folder, and no time has an underscore. -/
structure PlainNames (test : String) (stamp : Nat → String) (summaries : List Summary) : Prop where
  summaries : ∀ s ∈ summaries, '/' ∉ s.name.toList
  test : '/' ∉ test.toList
  stamps : ∀ i, '/' ∉ (stamp i).toList ∧ '_' ∉ (stamp i).toList

theorem slash_notMem_summaryFile {name test stamp : String} (hname : '/' ∉ name.toList)
    (htest : '/' ∉ test.toList) (hstamp : '/' ∉ stamp.toList) :
    '/' ∉ (summaryFile name test stamp).toList := by
  rw [toList_summaryFile]
  simp [hname, htest, hstamp]

section Places

variable {folder test : String} {files last : FileTree} {ws : List WrittenSummary}

theorem WritesAll.isEntryName (h : WritesAll folder test files ws last) {w : WrittenSummary}
    (hw : w ∈ ws) (hslash : '/' ∉ (summaryFile w.name test w.stamp).toList) :
    FileTree.IsEntryName (summaryFile w.name test w.stamp) := by
  induction h with
  | done => cases hw
  | next first _ ih =>
    rcases List.mem_cons.mp hw with rfl | hw
    · exact FileTree.isEntryName_of_write hslash first
    · exact ih hw

/-- With plain names, writes go to different places exactly when they are of different names or
times. -/
theorem WritesAll.places_nodup_iff (h : WritesAll folder test files ws last)
    (hslash : ∀ w ∈ ws, '/' ∉ (summaryFile w.name test w.stamp).toList)
    (hstamp : ∀ w ∈ ws, '_' ∉ w.stamp.toList) :
    (ws.map (·.destination folder test)).Nodup ↔ (ws.map fun w => (w.name, w.stamp)).Nodup := by
  unfold List.Nodup
  rw [List.pairwise_map, List.pairwise_map]
  refine List.Pairwise.iff_of_mem fun {a b} ha hb => not_congr ?_
  unfold WrittenSummary.destination WrittenSummary.path
  rw [FileTree.destination_join_inj (h.isEntryName ha (hslash a ha)) (h.isEntryName hb (hslash b hb))
    (hslash a ha) (hslash b hb), summaryFile_inj (hstamp a ha) (hstamp b hb), Prod.mk.injEq]

end Places

/-! ## Two summaries at one time -/

def sampleFolder : FileTree := ⟨Table.empty.put ["dir"] .folder⟩

def sampleStamp (_ : Nat) : String := "2024-01-01T00:00:00Z"

/-- A summary of a timer, and another one. -/
def sampleSummaries (other : String) : List Summary :=
  [⟨"Timer", .text "x"⟩, ⟨other, .text "y"⟩]

theorem plainNames_sampleSummaries {other : String} (h : '/' ∉ other.toList) :
    PlainNames "t" sampleStamp (sampleSummaries other) where
  summaries := by
    simp only [sampleSummaries, List.mem_cons, List.not_mem_nil, or_false]
    rintro s (rfl | rfl)
    · decide
    · exact h
  test := by decide
  stamps _ := by
    simp only [sampleStamp]
    decide

/-- Every summary of an emission into a folder is written or recorded as an error, unless printing
one crashes. The written ones are all kept exactly when no two of them go to one place: with plain
names, when no two of one name are written at one time. -/
theorem summaries_kept_iff (folder test : String) (stamp : Nat → String) (files : FileTree)
    (summaries : List Summary) :
    (∀ errors, (emitFrom (some folder) test stamp { files } 0 summaries).2 = .finished errors →
      (written folder test stamp files 0 summaries).length + errors.size = summaries.length) ∧
    (Kept folder test (emitFrom (some folder) test stamp { files } 0 summaries).1
        (written folder test stamp files 0 summaries) ↔
      ((written folder test stamp files 0 summaries).map (·.destination folder test)).Nodup) ∧
    (PlainNames test stamp summaries →
      (Kept folder test (emitFrom (some folder) test stamp { files } 0 summaries).1
          (written folder test stamp files 0 summaries) ↔
        ((written folder test stamp files 0 summaries).map fun w => (w.name, w.stamp)).Nodup)) := by
  have hemits := emits_emitFrom folder test stamp { files } 0 summaries
  refine ⟨fun errors he => ?_, hemits.writesAll.kept_iff, fun hplain => ?_⟩
  · have := hemits.length_written he
    simpa [ErrorList.size] using this
  · have hstamps {w : WrittenSummary} (hw : w ∈ written folder test stamp files 0 summaries) :
        '/' ∉ w.stamp.toList ∧ '_' ∉ w.stamp.toList := by
      obtain ⟨-, i, hi⟩ := hemits.mem hw
      exact hi ▸ hplain.stamps i
    rw [hemits.writesAll.kept_iff]
    refine hemits.writesAll.places_nodup_iff (fun w hw => ?_) (fun w hw => (hstamps hw).2)
    obtain ⟨⟨summary, hs, hname⟩, -⟩ := hemits.mem hw
    exact slash_notMem_summaryFile (hname ▸ hplain.summaries summary hs) hplain.test
      (hstamps hw).1

/-- Two summaries of different names are written at one time, and both are kept. -/
theorem summaries_kept_iff_differentNames :
    (emitFrom (some "dir") "t" sampleStamp { files := sampleFolder } 0
      (sampleSummaries "Probe")).2 = .finished {} ∧
    (written "dir" "t" sampleStamp sampleFolder 0 (sampleSummaries "Probe")).length = 2 ∧
    PlainNames "t" sampleStamp (sampleSummaries "Probe") ∧
    Kept "dir" "t"
      (emitFrom (some "dir") "t" sampleStamp { files := sampleFolder } 0 (sampleSummaries "Probe")).1
      (written "dir" "t" sampleStamp sampleFolder 0 (sampleSummaries "Probe")) := by
  obtain ⟨hcount, -, hkept⟩ :=
    summaries_kept_iff "dir" "t" sampleStamp sampleFolder (sampleSummaries "Probe")
  have hfinished : (emitFrom (some "dir") "t" sampleStamp { files := sampleFolder } 0
      (sampleSummaries "Probe")).2 = .finished {} := by decide +kernel
  have hplain : PlainNames "t" sampleStamp (sampleSummaries "Probe") :=
    plainNames_sampleSummaries (by decide)
  exact ⟨hfinished, hcount {} hfinished, hplain, (hkept hplain).mpr (by decide +kernel)⟩

/-- Two summaries of timers are written at one time. No error is recorded, and the first one is no
longer there. -/
theorem a_summary_is_overwritten :
    (emitFrom (some "dir") "t" sampleStamp { files := sampleFolder } 0
      (sampleSummaries "Timer")).2 = .finished {} ∧
    written "dir" "t" sampleStamp sampleFolder 0 (sampleSummaries "Timer") =
      [⟨"Timer", sampleStamp 0, "x"⟩, ⟨"Timer", sampleStamp 1, "y"⟩] ∧
    ¬ Kept "dir" "t"
      (emitFrom (some "dir") "t" sampleStamp { files := sampleFolder } 0 (sampleSummaries "Timer")).1
      (written "dir" "t" sampleStamp sampleFolder 0 (sampleSummaries "Timer")) := by
  refine ⟨by decide +kernel, by decide +kernel, fun hkept => ?_⟩
  have hfirst := hkept.texts ⟨"Timer", sampleStamp 0, "x"⟩ (by decide +kernel)
  exact absurd hfirst (by decide +kernel)

end ReplicaLoad

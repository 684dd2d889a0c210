-- Snapshots of templates. Templates are asked for while their files come,
-- change and go. A folder keeps the source of a path from the first time that
-- its file can be read, and tries the file again until then. So the answers on
-- a path are those of a table of first sources, whatever becomes of its file
-- and whatever is asked of other paths.
import Mathlib.Data.List.Induction
import ReplicaLoad.Run.Environment

namespace ReplicaLoad

/-! ## One call -/

/-- What is asked of the template of a path. -/
inductive TemplateCall where
  | object (path : String) (values : Dict)
  | bareObject (path : String)

namespace TemplateCall

def path : TemplateCall → String
  | object path _ => path
  | bareObject path => path

/-- What a call makes of a source. -/
def make : TemplateCall → String → Except TemplateError Object
  | object _ values, source => Object.ofTemplate values source
  | bareObject _, source => Object.ofBareTemplate source

/-- The answer to a call whose source is looked up in some templates. -/
def answer (c : TemplateCall) (templates : TemplateSource) : Except TemplateError Object :=
  match templates c.path with
  | .error e => .error e
  | .ok source => c.make source

theorem answer_congr {c : TemplateCall} {templates templates' : TemplateSource}
    (h : templates c.path = templates' c.path) : c.answer templates = c.answer templates' := by
  unfold answer
  rw [h]

end TemplateCall

namespace Environment

theorem object_eq_answer (env : Environment) (path : String) (values : Dict) :
    env.object path values = (TemplateCall.object path values).answer env.templates := rfl

theorem bareObject_eq_answer (env : Environment) (path : String) :
    env.bareObject path = (TemplateCall.bareObject path).answer env.templates := rfl

variable {env env' : Environment} {o : ObjectTemplate}

theorem bareObject_congr (h : env.templates o.path = env'.templates o.path) :
    env.bareObject o.path = env'.bareObject o.path := by
  rw [bareObject_eq_answer, bareObject_eq_answer]
  exact TemplateCall.answer_congr h

/-- A request knows the templates only by the source of its own path. -/
theorem request_congr (h : env.templates o.path = env'.templates o.path) (index : Nat)
    (op : Operation) : env.request o index op = env'.request o index op := by
  have hobject : env.object o.path (o.values index) = env'.object o.path (o.values index) := by
    rw [object_eq_answer, object_eq_answer]
    exact TemplateCall.answer_congr h
  cases op <;> simp only [request, hobject, bareObject_congr h]

theorem identify_congr (h : env.templates o.path = env'.templates o.path) :
    env.identify o = env'.identify o := by
  simp only [identify, bareObject_congr h]

end Environment

/-- What a template whose file cannot be read is reported as. -/
def FileFault.templateError (full : String) : FileFault → TemplateError
  | notFound => .notFound full
  | unusable => .unreadable full

namespace TemplateFolder

variable {f : TemplateFolder} {files : Files} {path source : String}

theorem load_of_known (h : f.known.get? path = some source) :
    f.load files path = (.ok source, f) := by
  unfold load
  rw [h]

theorem load_of_ok (h : f.known.get? path = none)
    (hfile : files (FileTree.join f.base path) = .ok source) :
    f.load files path = (.ok source, { f with known := f.known.put path source }) := by
  unfold load
  simp only [h, hfile]

/-- A file that cannot be read is reported by its full path, and nothing is kept. -/
theorem load_of_error {fault : FileFault} (h : f.known.get? path = none)
    (hfile : files (FileTree.join f.base path) = .error fault) :
    f.load files path = (.error (fault.templateError (FileTree.join f.base path)), f) := by
  unfold load
  cases fault <;> simp only [h, hfile, FileFault.templateError]

end TemplateFolder

/-! ## Calls and changes one after another -/

inductive FolderEvent where
  /-- Files are created, edited or deleted, which makes them these. -/
  | change (files : Files)
  | call (c : TemplateCall)

/-- The changes of the files and the calls on a path. -/
def FolderEvent.concerns (path : String) : FolderEvent → Bool
  | change _ => true
  | call c => c.path = path

/-- The files that an event leaves behind. -/
def FolderEvent.files (before : Files) : FolderEvent → Files
  | change files => files
  | call _ => before

/-- A folder of templates, and the files as they are. -/
structure FolderState where
  folder : TemplateFolder
  files : Files

namespace FolderState

def source (s : FolderState) : TemplateSource := fun path => (s.folder.load s.files path).1

def next (s : FolderState) : FolderEvent → FolderState
  | .change files => { s with files }
  | .call c => { s with folder := (s.folder.load s.files c.path).2 }

/-- A new folder and its files, after a history. -/
def after (base : String) (files : Files) (history : List FolderEvent) : FolderState :=
  history.foldl next ⟨{ base }, files⟩

end FolderState

/-- The files after a history. -/
def filesAfter (files : Files) (history : List FolderEvent) : Files :=
  history.foldl FolderEvent.files files

section Histories

variable (base : String) (files : Files)

/-- An event after a history is a call on a path, and the file of the path can be read then and
holds a source. -/
def Reads (history : List FolderEvent) (e : FolderEvent) (path source : String) : Prop :=
  (∃ c, e = .call c ∧ c.path = path) ∧
    filesAfter files history (FileTree.join base path) = .ok source

def NeverRead (history : List FolderEvent) (path : String) : Prop :=
  ∀ past e, past ++ [e] <+: history → ∀ source, ¬ Reads base files past e path source

/-- The first call on a path that could read its file found a source in it. -/
def FirstRead (history : List FolderEvent) (path source : String) : Prop :=
  ∃ past e, past ++ [e] <+: history ∧ NeverRead base files past path ∧
    Reads base files past e path source

variable {base files} {history : List FolderEvent} {e : FolderEvent} {path source : String}

theorem FirstRead.mono {longer : List FolderEvent} (h : FirstRead base files history path source)
    (hlonger : history <+: longer) : FirstRead base files longer path source := by
  obtain ⟨past, e, hpast, hnever, hreads⟩ := h
  exact ⟨past, e, hpast.trans hlonger, hnever, hreads⟩

/-- An event of a longer history is the one that was added to it, or one before. -/
theorem append_prefix_append_iff {past : List FolderEvent} {e' : FolderEvent} :
    past ++ [e'] <+: history ++ [e] ↔ past = history ∧ e' = e ∨ past ++ [e'] <+: history := by
  rw [List.prefix_concat_iff]
  refine or_congr_left ⟨fun h => ?_, ?_⟩
  · obtain ⟨hpast, he⟩ := List.append_inj' h rfl
    exact ⟨hpast, List.singleton_inj.mp he⟩
  · rintro ⟨rfl, rfl⟩
    rfl

theorem neverRead_append :
    NeverRead base files (history ++ [e]) path ↔
      NeverRead base files history path ∧ ∀ source, ¬ Reads base files history e path source := by
  constructor
  · intro h
    exact ⟨fun past e' hpast => h past e' (hpast.trans (List.prefix_append _ _)),
      h history e List.prefix_rfl⟩
  · rintro ⟨hnever, hlast⟩ past e' hpast
    rcases append_prefix_append_iff.mp hpast with ⟨rfl, rfl⟩ | hpast
    · exact hlast
    · exact hnever past e' hpast

theorem firstRead_append :
    FirstRead base files (history ++ [e]) path source ↔
      FirstRead base files history path source ∨
        NeverRead base files history path ∧ Reads base files history e path source := by
  constructor
  · rintro ⟨past, e', hpast, hnever, hreads⟩
    rcases append_prefix_append_iff.mp hpast with ⟨rfl, rfl⟩ | hpast
    · exact .inr ⟨hnever, hreads⟩
    · exact .inl ⟨past, e', hpast, hnever, hreads⟩
  · rintro (h | ⟨hnever, hreads⟩)
    · exact h.mono (List.prefix_append _ _)
    · exact ⟨history, e, List.prefix_rfl, hnever, hreads⟩

theorem neverRead_iff_forall_not_firstRead :
    NeverRead base files history path ↔ ∀ source, ¬ FirstRead base files history path source := by
  constructor
  · rintro h source ⟨past, e, hpast, -, hreads⟩
    exact h past e hpast source hreads
  · induction history using List.reverseRecOn with
    | nil => exact fun _ past e hpast => absurd (List.prefix_nil.mp hpast) (by simp)
    | append_singleton history e ih =>
      intro h
      have hnever := ih fun source hfirst => h source (firstRead_append.mpr (.inl hfirst))
      exact neverRead_append.mpr
        ⟨hnever, fun source hreads => h source (firstRead_append.mpr (.inr ⟨hnever, hreads⟩))⟩

theorem eq_none_iff_neverRead {known : Option String}
    (h : ∀ source, known = some source ↔ FirstRead base files history path source) :
    known = none ↔ NeverRead base files history path := by
  rw [Option.eq_none_iff_forall_ne_some, neverRead_iff_forall_not_firstRead]
  exact forall_congr' fun source => not_congr (h source)

/-! ## What a folder knows -/

namespace FolderState

variable {s : FolderState} {c : TemplateCall}

theorem after_append :
    after base files (history ++ [e]) = (after base files history).next e := by
  simp [after, List.foldl_append]

@[simp] theorem base_next (s : FolderState) (e : FolderEvent) :
    (s.next e).folder.base = s.folder.base := by
  cases e with
  | change files => rfl
  | call c =>
    dsimp only [next]
    unfold TemplateFolder.load
    split
    · rfl
    · dsimp only
      split <;> rfl

@[simp] theorem files_next (s : FolderState) (e : FolderEvent) :
    (s.next e).files = e.files s.files := by
  cases e <;> rfl

theorem base_after : (after base files history).folder.base = base := by
  induction history using List.reverseRecOn with
  | nil => rfl
  | append_singleton history e ih => rw [after_append, base_next, ih]

theorem files_after : (after base files history).files = filesAfter files history := by
  induction history using List.reverseRecOn with
  | nil => rfl
  | append_singleton history e ih =>
    rw [after_append, files_next, ih]
    simp [filesAfter, List.foldl_append]

/-- An event adds a source to the known ones only where there was none. -/
theorem get?_next_eq_some_iff :
    (s.next e).folder.known.get? path = some source ↔
      s.folder.known.get? path = some source ∨
        s.folder.known.get? path = none ∧ (∃ c, e = .call c ∧ c.path = path) ∧
          s.files (FileTree.join s.folder.base path) = .ok source := by
  cases e with
  | change files => simp [next]
  | call c =>
    dsimp only [next]
    simp only [FolderEvent.call.injEq, exists_eq_left']
    rcases hknown : s.folder.known.get? c.path with _ | kept
    · rcases hfile : s.files (FileTree.join s.folder.base c.path) with fault | read
      · -- the file cannot be read now
        rw [TemplateFolder.load_of_error hknown hfile]
        refine ⟨.inl, ?_⟩
        rintro (h | ⟨-, rfl, hread⟩)
        · exact h
        · rw [hfile] at hread
          cases hread
      · rw [TemplateFolder.load_of_ok hknown hfile]
        dsimp only
        rw [Table.get?_put]
        by_cases hpath : c.path = path
        · subst hpath
          simp [hknown, hfile]
        · simp [hpath]
    · rw [TemplateFolder.load_of_known hknown]
      refine ⟨.inl, ?_⟩
      rintro (h | ⟨hnone, rfl, -⟩)
      · exact h
      · rw [hknown] at hnone
        cases hnone

/-- A call finds a source exactly if the source of its path is known after it. -/
theorem source_eq_ok_iff :
    s.source c.path = .ok source ↔ (s.next (.call c)).folder.known.get? c.path = some source := by
  dsimp only [FolderState.source, next]
  rcases hknown : s.folder.known.get? c.path with _ | kept
  · rcases hfile : s.files (FileTree.join s.folder.base c.path) with fault | read
    · rw [TemplateFolder.load_of_error hknown hfile]
      simp [hknown]
    · rw [TemplateFolder.load_of_ok hknown hfile]
      simp [Table.get?_put]
  · rw [TemplateFolder.load_of_known hknown]
    simp [hknown]

/-- A call that finds no source says why its file cannot be read, and changes nothing. -/
theorem source_of_unknown (h : (s.next (.call c)).folder.known.get? c.path = none) :
    ∃ fault, s.files (FileTree.join s.folder.base c.path) = .error fault ∧
      s.source c.path = .error (fault.templateError (FileTree.join s.folder.base c.path)) ∧
      s.next (.call c) = s := by
  have hunknown : s.folder.known.get? c.path = none := by
    rw [Option.eq_none_iff_forall_ne_some] at h ⊢
    exact fun source hs => h source (get?_next_eq_some_iff.mpr (.inl hs))
  rcases hfile : s.files (FileTree.join s.folder.base c.path) with fault | read
  · have hload := TemplateFolder.load_of_error hunknown hfile
    refine ⟨fault, rfl, ?_, ?_⟩
    · dsimp only [FolderState.source]
      rw [hload]
    · dsimp only [next]
      rw [hload]
  · have hread : (s.next (.call c)).folder.known.get? c.path = some read :=
      get?_next_eq_some_iff.mpr (.inr ⟨hunknown, ⟨c, rfl, rfl⟩, hfile⟩)
    rw [h] at hread
    cases hread

/-- The source of a path that is known is that of its first read. -/
theorem get?_after_eq_some_iff :
    (after base files history).folder.known.get? path = some source ↔
      FirstRead base files history path source := by
  induction history using List.reverseRecOn generalizing source with
  | nil =>
    constructor
    · intro h
      cases h
    · rintro ⟨past, e, hpast, -⟩
      exact absurd (List.prefix_nil.mp hpast) (by simp)
  | append_singleton history e ih =>
    have hnone := eq_none_iff_neverRead fun _ => ih
    rw [after_append, get?_next_eq_some_iff, firstRead_append, ih, hnone, base_after, files_after,
      Reads]

theorem get?_after_eq_none_iff :
    (after base files history).folder.known.get? path = none ↔
      NeverRead base files history path :=
  eq_none_iff_neverRead fun _ => get?_after_eq_some_iff

/-! ## What a lookup depends on -/

/-- A lookup depends on the known source of its own path, and on the files. -/
theorem source_congr {s' : FolderState}
    (hknown : s.folder.known.get? path = s'.folder.known.get? path)
    (hbase : s.folder.base = s'.folder.base) (hfiles : s.files = s'.files) :
    s.source path = s'.source path := by
  dsimp only [FolderState.source]
  unfold TemplateFolder.load
  rw [hknown, hbase, hfiles]
  split
  · rfl
  · dsimp only
    split <;> rfl

end FolderState

theorem FolderEvent.not_concerns_iff :
    ¬ e.concerns path ↔ ∃ c, e = .call c ∧ c.path ≠ path := by
  cases e <;> simp [concerns]

theorem filesAfter_filter :
    filesAfter files (history.filter (·.concerns path)) = filesAfter files history := by
  unfold filesAfter
  induction history generalizing files with
  | nil => rfl
  | cons e rest ih =>
    by_cases he : e.concerns path
    · rw [List.filter_cons_of_pos he]
      exact ih
    · rw [List.filter_cons_of_neg he]
      obtain ⟨c, rfl, -⟩ := FolderEvent.not_concerns_iff.mp he
      exact ih

namespace FolderState

theorem get?_after_filter :
    (after base files (history.filter (·.concerns path))).folder.known.get? path =
      (after base files history).folder.known.get? path := by
  induction history using List.reverseRecOn with
  | nil => rfl
  | append_singleton history e ih =>
    rw [List.filter_append]
    by_cases he : e.concerns path
    · rw [List.filter_cons_of_pos he, List.filter_nil, after_append, after_append]
      ext source
      rw [get?_next_eq_some_iff, get?_next_eq_some_iff, ih, base_after, base_after, files_after,
        files_after, filesAfter_filter]
    · rw [List.filter_cons_of_neg he, List.filter_nil, List.append_nil, ih, after_append]
      obtain ⟨c, rfl, hc⟩ := FolderEvent.not_concerns_iff.mp he
      ext source
      rw [get?_next_eq_some_iff]
      simp [hc]

/-- Calls on other paths do not matter to a lookup. -/
theorem source_after_filter :
    (after base files (history.filter (·.concerns path))).source path =
      (after base files history).source path :=
  source_congr get?_after_filter (base_after.trans base_after.symm)
    (by rw [files_after, files_after, filesAfter_filter])

end FolderState

end Histories

/-- After any history of calls and of changes of the files there is a table of templates that holds,
for each path, the source at its first read. Once a path has been read, a call on it is answered as
from that table, and so are the requests of all operations and the identities of its replicas.
Before that a call fails with the fault of the file, and nothing of it is kept. What is asked of
other paths does not matter. -/
theorem templates_snapshotted (base : String) (files : Files) (history : List FolderEvent) :
    ∃ snapshot : TemplateTable,
      (∀ path source,
        snapshot.get? path = some source ↔ FirstRead base files history path source) ∧
      ∀ past c, past ++ [.call c] <+: history →
        let s := FolderState.after base files past
        (¬ NeverRead base files (past ++ [.call c]) c.path →
          c.answer s.source = c.answer snapshot.source ∧
          ∀ (env : Environment) (o : ObjectTemplate), o.path = c.path →
            ({ env with templates := s.source }).identify o =
              ({ env with templates := snapshot.source }).identify o ∧
            ∀ index op, ({ env with templates := s.source }).request o index op =
              ({ env with templates := snapshot.source }).request o index op) ∧
        (NeverRead base files (past ++ [.call c]) c.path →
          ∃ fault, filesAfter files past (FileTree.join base c.path) = .error fault ∧
            c.answer s.source = .error (fault.templateError (FileTree.join base c.path)) ∧
            s.next (.call c) = s) ∧
        c.answer (FolderState.after base files (past.filter (·.concerns c.path))).source =
          c.answer s.source := by
  refine ⟨(FolderState.after base files history).folder.known,
    fun path source => FolderState.get?_after_eq_some_iff, ?_⟩
  intro past c hpast s
  refine ⟨?_, ?_, TemplateCall.answer_congr FolderState.source_after_filter⟩
  · intro hread
    obtain ⟨source, hfirst⟩ :=
      not_forall_not.mp (mt neverRead_iff_forall_not_firstRead.mpr hread)
    -- the first read stays the first one as the history goes on
    have hsnapshot := FolderState.get?_after_eq_some_iff.mpr (hfirst.mono hpast)
    have hsource : s.source c.path = .ok source := by
      rw [FolderState.source_eq_ok_iff, ← FolderState.after_append]
      exact FolderState.get?_after_eq_some_iff.mpr hfirst
    have hsame : s.source c.path =
        (FolderState.after base files history).folder.known.source c.path := by
      rw [hsource, TemplateTable.source, hsnapshot]
    refine ⟨TemplateCall.answer_congr hsame, fun env o ho => ?_⟩
    rw [← ho] at hsame
    exact ⟨Environment.identify_congr hsame, Environment.request_congr hsame⟩
  · intro hnever
    rw [← FolderState.get?_after_eq_none_iff, FolderState.after_append] at hnever
    obtain ⟨fault, hfile, hsource, hnext⟩ := FolderState.source_of_unknown hnever
    rw [FolderState.base_after] at hfile hsource
    rw [FolderState.files_after] at hfile
    refine ⟨fault, hfile, ?_, hnext⟩
    rw [TemplateCall.answer, hsource]

/-- A template that is asked for before there is a file, then is created, read, edited and deleted,
and is asked for again. -/
def sampleEvents : List FolderEvent :=
  [.call (.bareObject "a.yaml"),
    .change (FileTree.place {} "t/a.yaml" (.file (some "kind: A\n"))).read,
    .call (.object "a.yaml" []),
    .change (FileTree.place {} "t/a.yaml" (.file (some "kind: B\n"))).read,
    .call (.bareObject "b.yaml"),
    .change (FileTree.place {} "t" .folder).read,
    .call (.bareObject "a.yaml")]

theorem templates_snapshotted_sampleEvents :
    FirstRead "t" (FileTree.read {}) sampleEvents "a.yaml" "kind: A\n" ∧
    (TemplateCall.bareObject "a.yaml").answer
      (FolderState.after "t" (FileTree.read {}) []).source = .error (.notFound "t/a.yaml") ∧
    (TemplateCall.bareObject "a.yaml").answer
        (FolderState.after "t" (FileTree.read {}) (sampleEvents.take 6)).source =
      Object.ofBareTemplate "kind: A\n" := by
  obtain ⟨snapshot, hsnapshot, hcalls⟩ :=
    templates_snapshotted "t" (FileTree.read {}) sampleEvents
  have hfirst : FirstRead "t" (FileTree.read {}) sampleEvents "a.yaml" "kind: A\n" :=
    FolderState.get?_after_eq_some_iff.mp (by decide +kernel)
  refine ⟨hfirst, ?_, ?_⟩
  · have hnever : NeverRead "t" (FileTree.read {}) [.call (.bareObject "a.yaml")] "a.yaml" :=
      FolderState.get?_after_eq_none_iff.mp (by decide +kernel)
    obtain ⟨fault, hfile, hanswer, -⟩ :=
      (hcalls [] (.bareObject "a.yaml") (List.prefix_append _ _)).2.1 hnever
    have hfull : FileTree.join "t" (TemplateCall.bareObject "a.yaml").path = "t/a.yaml" := by
      decide +kernel
    have hmissing : filesAfter (FileTree.read {}) [] "t/a.yaml" = .error .notFound := by
      decide +kernel
    rw [hfull] at hfile hanswer
    obtain rfl : FileFault.notFound = fault := Except.error.inj (hmissing.symm.trans hfile)
    exact hanswer
  · have hread : ¬ NeverRead "t" (FileTree.read {}) sampleEvents "a.yaml" := fun h =>
      neverRead_iff_forall_not_firstRead.mp h _ hfirst
    have hanswer := ((hcalls (sampleEvents.take 6) (.bareObject "a.yaml")
      List.prefix_rfl).1 hread).1
    have hkept : snapshot.get? "a.yaml" = some "kind: A\n" := (hsnapshot _ _).mpr hfirst
    rw [hanswer]
    simp only [TemplateCall.answer, TemplateCall.path, TemplateTable.source, hkept,
      TemplateCall.make]

end ReplicaLoad

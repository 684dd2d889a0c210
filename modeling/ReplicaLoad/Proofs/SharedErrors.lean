-- Errors that tasks share. Tasks add errors to one list and take out of it what
-- it holds, one call at a time. Whatever the order of their calls, every error
-- that was recorded is in exactly one place afterwards, in the list or in a
-- list that was taken. It can be told of each error there which task has
-- recorded it, and the errors of a task stand in the order in which it has
-- recorded them.
import Mathlib.Data.Multiset.AddSub
import ReplicaLoad.Run.ErrorList

namespace ReplicaLoad

/-! ## What a list shows -/

namespace ErrorList

/-- What can be read off a list tells of these errors, in their order. -/
structure Shows (l : ErrorList) (errors : List RunError) : Prop where
  size : l.size = errors.length
  isEmpty : l.isEmpty = true ↔ errors = []
  messages : l.messages = errors.map RunError.message
  display : l.display = "\n".intercalate
    (s!"{errors.length} error(s)" :: errors.map fun e => "  - " ++ e.message)

theorem intercalate_line (first : String) (texts : List String) :
    texts.foldl (fun s m => s ++ "\n  - " ++ m) first =
      "\n".intercalate (first :: texts.map ("  - " ++ ·)) := by
  induction texts generalizing first with
  | nil => simp
  | cons m rest ih =>
    have hbreak : first ++ "\n  - " ++ m = first ++ "\n" ++ ("  - " ++ m) := by
      have hmark : "\n  - " = "\n" ++ "  - " := rfl
      rw [hmark, String.append_assoc, String.append_assoc, String.append_assoc]
    rw [List.foldl_cons, ih, hbreak, List.map_cons, String.intercalate_cons_cons]
    cases rest with
    | nil => simp
    | cons m' rest =>
      rw [List.map_cons, String.intercalate_cons_cons, String.intercalate_cons_cons]
      simp only [String.append_assoc]

theorem shows (l : ErrorList) : l.Shows l.errors where
  size := rfl
  isEmpty := List.isEmpty_iff
  messages := rfl
  display := by
    unfold display
    rw [intercalate_line]
    simp [messages, size, Function.comp_def]

theorem concat_assoc (a b c : ErrorList) : (a.concat b).concat c = a.concat (b.concat c) :=
  congrArg ErrorList.mk (List.append_assoc a.errors b.errors c.errors)

theorem concat_empty (a : ErrorList) : a.concat {} = a :=
  congrArg ErrorList.mk (List.append_nil a.errors)

theorem empty_concat (a : ErrorList) : concat {} a = a := rfl

end ErrorList

/-! ## Calls -/

/-- A call that changes a list of errors. -/
inductive ErrorCall where
  | append (e : RunError)
  | concat (other : ErrorList)
  | take

/-- The errors that a call adds. -/
def ErrorCall.added : ErrorCall → List RunError
  | append e => [e]
  | concat other => other.errors
  | take => []

structure TaskCall where
  task : Nat
  call : ErrorCall

/-- A list that tasks share, and the lists that were taken from it, the latest last. -/
structure SharedErrors where
  list : ErrorList := {}
  taken : List ErrorList := []

namespace SharedErrors

def call (s : SharedErrors) : ErrorCall → SharedErrors
  | .append e => { s with list := s.list.append e }
  | .concat other => { s with list := s.list.concat other }
  | .take => ⟨s.list.take.2, s.taken ++ [s.list.take.1]⟩

/-- Calls of tasks in the order in which they get hold of the list. The calls of one task stand in
its own order, and the tasks may take turns in any way. -/
def after (s : SharedErrors) : List TaskCall → SharedErrors
  | [] => s
  | c :: rest => (s.call c.call).after rest

end SharedErrors

/-! ## Where errors come from -/

/-- An error with the task that has recorded it. -/
structure RecordedError where
  task : Nat
  error : RunError

namespace RecordedError

/-- The errors of a task, in their order. -/
def ofTask (task : Nat) (rs : List RecordedError) : List RunError :=
  (rs.filter (·.task = task)).map error

theorem ofTask_append (task : Nat) (rs rs' : List RecordedError) :
    ofTask task (rs ++ rs') = ofTask task rs ++ ofTask task rs' := by
  simp [ofTask]

theorem ofTask_flatten (task : Nat) (rss : List (List RecordedError)) :
    ofTask task rss.flatten = rss.flatMap (ofTask task) := by
  unfold ofTask
  rw [List.filter_flatten, List.map_flatten, List.map_map, List.flatMap_def]
  rfl

end RecordedError

namespace TaskCall

def records (c : TaskCall) : List RecordedError := c.call.added.map (RecordedError.mk c.task)

/-- The errors that a task records, in the order of its calls. -/
def recordedBy (task : Nat) (calls : List TaskCall) : List RunError :=
  (calls.filter (·.task = task)).flatMap fun c => c.call.added

theorem ofTask_records (task : Nat) (c : TaskCall) :
    RecordedError.ofTask task c.records = if c.task = task then c.call.added else [] := by
  unfold RecordedError.ofTask records
  rw [List.filter_map, List.map_map]
  by_cases h : c.task = task
  · simp [h, Function.comp_def]
  · simp [h, Function.comp_def]

theorem ofTask_flatMap_records (task : Nat) (calls : List TaskCall) :
    RecordedError.ofTask task (calls.flatMap records) = recordedBy task calls := by
  induction calls with
  | nil => rfl
  | cons c rest ih =>
    rw [List.flatMap_cons, RecordedError.ofTask_append, ih, ofTask_records]
    unfold recordedBy
    by_cases h : c.task = task
    · simp [h]
    · simp [h]

theorem map_error_records (calls : List TaskCall) :
    (calls.flatMap records).map RecordedError.error = calls.flatMap fun c => c.call.added := by
  simp [List.map_flatMap, records, Function.comp_def]

end TaskCall

/-- The tasks that have recorded the errors of a shared list and of the lists taken from it. -/
structure Origins (s : SharedErrors) where
  list : List RecordedError
  taken : List (List RecordedError)
  list_errors : list.map RecordedError.error = s.list.errors
  taken_errors : taken.map (·.map RecordedError.error) = s.taken.map ErrorList.errors

namespace Origins

variable {s : SharedErrors}

def start : Origins {} := ⟨[], [], rfl, rfl⟩

/-- What a task adds comes from it, and what is taken keeps its origin. -/
def call (o : Origins s) (task : Nat) : (c : ErrorCall) → Origins (s.call c)
  | .append e => ⟨o.list ++ [⟨task, e⟩], o.taken, by
      simp [SharedErrors.call, ErrorList.append, o.list_errors], o.taken_errors⟩
  | .concat other => ⟨o.list ++ other.errors.map (RecordedError.mk task), o.taken, by
      simp [SharedErrors.call, ErrorList.concat, o.list_errors, Function.comp_def], o.taken_errors⟩
  | .take => ⟨[], o.taken ++ [o.list], rfl, by
      simp [SharedErrors.call, ErrorList.take, o.list_errors, o.taken_errors]⟩

def after {s : SharedErrors} (o : Origins s) : (calls : List TaskCall) → Origins (s.after calls)
  | [] => o
  | c :: rest => (o.call c.task c.call).after rest

/-- All errors, those of the lists taken first. -/
def all (o : Origins s) : List RecordedError := o.taken.flatten ++ o.list

theorem map_error_all (o : Origins s) :
    o.all.map RecordedError.error = s.taken.flatMap ErrorList.errors ++ s.list.errors := by
  unfold all
  rw [List.map_append, List.map_flatten, o.taken_errors, o.list_errors, List.flatMap_def]

/-- A call moves errors on and adds its own behind all others. -/
theorem all_call (o : Origins s) (c : TaskCall) :
    (o.call c.task c.call).all = o.all ++ c.records := by
  obtain ⟨task, c⟩ := c
  cases c with
  | append e => simp [all, call, TaskCall.records, ErrorCall.added]
  | concat other => simp [all, call, TaskCall.records, ErrorCall.added]
  | take => simp [all, call, TaskCall.records, ErrorCall.added]

theorem all_after (o : Origins s) (calls : List TaskCall) :
    (o.after calls).all = o.all ++ calls.flatMap TaskCall.records := by
  induction calls generalizing s with
  | nil => exact (List.append_nil o.all).symm
  | cons c rest ih =>
    calc ((o.call c.task c.call).after rest).all
        = (o.call c.task c.call).all ++ rest.flatMap TaskCall.records := ih _
      _ = o.all ++ (c :: rest).flatMap TaskCall.records := by
        rw [all_call, List.flatMap_cons, List.append_assoc]

theorem all_start (calls : List TaskCall) :
    (start.after calls).all = calls.flatMap TaskCall.records := by
  rw [all_after]
  rfl

/-- What holds of a shared list and of the lists taken from it after calls of tasks. -/
structure Accounts (o : Origins s) (calls : List TaskCall) : Prop where
  /-- What was added is in the list now or in a list that was taken, as often as it was added. -/
  conserved : (calls.flatMap fun c => c.call.added : Multiset RunError) =
    s.list.errors + (s.taken.map fun l => (l.errors : Multiset RunError)).sum
  /-- The errors of a task in the lists taken, one after another, and then in the list now are those
  that it has recorded, in the order in which it has. -/
  ordered : ∀ task, o.taken.flatMap (RecordedError.ofTask task) ++ RecordedError.ofTask task o.list =
    TaskCall.recordedBy task calls
  shown : s.list.Shows (o.list.map RecordedError.error)

theorem conserved (calls : List TaskCall) :
    (calls.flatMap fun c => c.call.added) =
      (SharedErrors.after {} calls).taken.flatMap ErrorList.errors ++
        (SharedErrors.after {} calls).list.errors := by
  rw [← TaskCall.map_error_records, ← all_start, map_error_all]

theorem sum_errors (ls : List ErrorList) :
    (ls.map fun l => (l.errors : Multiset RunError)).sum = ls.flatMap ErrorList.errors := by
  induction ls with
  | nil => rfl
  | cons l rest ih => rw [List.map_cons, List.sum_cons, ih, List.flatMap_cons, Multiset.coe_add]

theorem accounts (calls : List TaskCall) : (start.after calls).Accounts calls where
  conserved := by
    rw [sum_errors, conserved, Multiset.coe_add]
    exact Multiset.coe_eq_coe.mpr List.perm_append_comm
  ordered := by
    intro task
    rw [← TaskCall.ofTask_flatMap_records, ← all_start, all, RecordedError.ofTask_append,
      RecordedError.ofTask_flatten]
  shown := by
    rw [(start.after calls).list_errors]
    exact ErrorList.shows _

end Origins

/-- However the calls of tasks on a list follow one another, no error is lost or doubled, the errors
of each task stay in their order, and the readings of the list agree on what it holds. Lists are
joined associatively, with the empty list as the unit. -/
theorem shared_errors_conserved :
    (∀ calls : List TaskCall, (Origins.start.after calls).Accounts calls) ∧
    (∀ a b c : ErrorList, (a.concat b).concat c = a.concat (b.concat c)) ∧
    (∀ a : ErrorList, a.concat {} = a ∧ ErrorList.concat {} a = a) ∧
    ∀ l : ErrorList, l.Shows l.errors :=
  ⟨Origins.accounts, ErrorList.concat_assoc,
    fun a => ⟨a.concat_empty, a.empty_concat⟩, ErrorList.shows⟩

end ReplicaLoad

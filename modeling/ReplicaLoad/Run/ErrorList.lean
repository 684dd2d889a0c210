-- Lists of errors. The errors of a run in the order in which they were
-- recorded. Nothing is taken out of a list but all of it.
import ReplicaLoad.Run.Error

namespace ReplicaLoad

/-- Recorded errors, the earliest first. -/
structure ErrorList where
  errors : List RunError := []
  deriving DecidableEq

namespace ErrorList

def append (l : ErrorList) (e : RunError) : ErrorList := ⟨l.errors ++ [e]⟩

def concat (l other : ErrorList) : ErrorList := ⟨l.errors ++ other.errors⟩

def take (l : ErrorList) : ErrorList × ErrorList := (l, {})

def size (l : ErrorList) : Nat := l.errors.length

def isEmpty (l : ErrorList) : Bool := l.errors.isEmpty

def any (l : ErrorList) (test : RunError → Bool) : Bool := l.errors.any test

def messages (l : ErrorList) : List String := l.errors.map RunError.message

/-- The number of errors, and their texts on lines of their own. -/
def display (l : ErrorList) : String :=
  l.messages.foldl (fun s m => s ++ "\n  - " ++ m) s!"{l.size} error(s)"

end ErrorList

/-- Which errors of a step end a run. -/
inductive FatalityPolicy where
  /-- Errors of the setup. -/
  | default
  /-- Any error. -/
  | abortOnAnyError
  deriving DecidableEq, Inhabited

def FatalityPolicy.isCritical (p : FatalityPolicy) (l : ErrorList) : Bool :=
  match p with
  | default => l.any RunError.isSetup
  | abortOnAnyError => !l.isEmpty

end ReplicaLoad

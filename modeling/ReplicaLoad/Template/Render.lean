-- Rendering. A template prints a text from values that have names. A name
-- means, in this order, what the innermost loop has assigned to it, what the
-- loops and the template around it have, and the value of that name. An
-- assignment inside a loop is gone after the loop.
import ReplicaLoad.Table
import ReplicaLoad.Template.Filter
import ReplicaLoad.Template.Grammar

namespace ReplicaLoad.Template

structure Frame where
  names : Table String Datum := Table.empty
  /-- The state of the loop. -/
  turn : Option Datum := none

structure Scope where
  mode : Mode
  /-- The values that the template is rendered with. -/
  values : List (Datum × Datum)
  /-- The frame of the template, with the frames of the loops before it, the innermost first. -/
  frames : List Frame := [{}]

namespace Scope

def find? (name : String) : List Frame → Option Datum
  | [] => none
  | f :: rest => match f.names.get? name with
    | some d => some d
    | none => if name = "loop" then f.turn.or (find? name rest) else find? name rest

def get? (s : Scope) (name : String) : Option Datum :=
  (find? name s.frames).or (Datum.lookup? (.text name) s.values)

def set (s : Scope) (name : String) (d : Datum) : Scope :=
  match s.frames with
  | [] => { s with frames := [{ names := Table.empty.put name d }] }
  | f :: rest => { s with frames := { f with names := f.names.put name d } :: rest }

def push (s : Scope) : Scope := { s with frames := {} :: s.frames }

def pop (s : Scope) : Scope := { s with frames := s.frames.drop 1 }

def setTurn (s : Scope) (index length : Nat) : Scope :=
  match s.frames with
  | [] => s
  | f :: rest => { s with frames := { f with turn := some (.turn index length (rest.length - 1)) } :: rest }

mutual

def bind (s : Scope) (d : Datum) : Target → Except Fault Scope
  | .name n => .ok (s.set n d)
  | .parts ts => match d with
    | .list items => bindAll s items ts
    | .dict entries => bindAll s (entries.map (·.1)) ts
    | _ => .error .cannotUnpack

def bindAll (s : Scope) (ds : List Datum) : List Target → Except Fault Scope
  | [] => if ds.isEmpty then .ok s else .error .cannotUnpack
  | t :: ts => match ds with
    | d :: ds => do bindAll (← bind s d t) ds ts
    | [] => .error .cannotUnpack

end

end Scope

/-- The part of a datum. A missing part is undefined, but the undefined datum has no parts. -/
def partOf (whole : Datum) (part : Option Datum) : Outcome :=
  match part with
  | some d => .ok d
  | none => if whole.isUndefined then .error .undefinedValue else .ok .missing

def callFunction (s : Scope) (name : String) (a : Arguments) : Outcome :=
  match s.get? name with
  | some _ => .error .invalidOperation
  | none => if name = "range" then rangeFunction a else .error .unknownFunction

/-- The result of a method: no datum has one, and an entry of a dictionary cannot be called. -/
def callMethod (d : Datum) (name : String) : Outcome :=
  match d with
  | .dict entries =>
    if (Datum.lookup? (.text name) entries).isSome then .error .invalidOperation else .error .unknownMethod
  | _ => .error .unknownMethod

mutual

def Expr.eval (s : Scope) : Expr → Outcome
  | .constant d => .ok d
  | .variable name => .ok ((s.get? name).getD .missing)
  | .list items => do return .list (← evalAll s items)
  | .dict keys values => do
    let ks ← evalAll s keys
    let vs ← evalAll s values
    return Datum.dictOf (ks.zip vs)
  | .attribute e name => do
    let d ← e.eval s
    partOf d (d.attribute? name)
  | .item e key => do
    let d ← e.eval s
    let k ← key.eval s
    partOf d (d.item? k)
  | .slice e start stop step => do
    let d ← e.eval s
    let start ← start.eval s
    let stop ← stop.eval s
    let step ← step.eval s
    d.slice start stop step
  | .function name args names named => do
    let plain ← evalAll s args
    let named ← evalAll s named
    callFunction s name ⟨plain, names.zip named⟩
  | .method e name args => do
    let d ← e.eval s
    let _ ← evalAll s args
    callMethod d name
  | .call e args => do
    let _ ← e.eval s
    let _ ← evalAll s args
    .error .invalidOperation
  | .filter e name args names named => do
    let d ← e.eval s
    let plain ← evalAll s args
    let named ← evalAll s named
    match filter? s.mode name with
    | some f => f d ⟨plain, names.zip named⟩
    | none => .error .unknownFilter
  | .test e name args => do
    let d ← e.eval s
    let plain ← evalAll s args
    match test? name with
    | some f => if plain.isEmpty then return .bool (f d) else .error .tooManyArguments
    | none => .error .unknownTest
  | .negative e => do (← e.eval s).negate
  | .not e => do return .bool (!(← (← e.eval s).toTruth s.mode))
  | .and a b => do
    let d ← a.eval s
    if (← d.toTruth s.mode) then b.eval s else return d
  | .or a b => do
    let d ← a.eval s
    if (← d.toTruth s.mode) then return d else b.eval s
  | .binary op a b => do
    let x ← a.eval s
    let y ← b.eval s
    op.apply s.mode x y
  | .choose condition yes no => do
    if (← (← condition.eval s).toTruth s.mode) then yes.eval s else no.eval s

def evalAll (s : Scope) : List Expr → Except Fault (List Datum)
  | [] => .ok []
  | e :: rest => do return (← e.eval s) :: (← evalAll s rest)

end

/-- The datum of a target in a loop, if it passes the filter. -/
def passes (s : Scope) (target : Target) (condition : Expr) (d : Datum) : Except Fault Bool := do
  let s ← s.bind d target
  (← condition.eval s).toTruth s.mode

/-- The result of the inclusion of a template: there is no other template. -/
def includeResult (ignoreMissing : Bool) : Datum → Except Fault String
  | .text _ => if ignoreMissing then .ok "" else .error .templateNotFound
  | .list items =>
    if items.all fun d => d.text?.isSome then
      if items.isEmpty || ignoreMissing then .ok "" else .error .templateNotFound
    else .error .invalidOperation
  | _ => .error .invalidOperation

mutual

def Node.render (s : Scope) : Node → Except Fault (String × Scope)
  | .text t => .ok (t, s)
  | .print e => do
    let d ← e.eval s
    return (← d.toText s.mode, s)
  | .choose condition yes no => do
    if (← (← condition.eval s).toTruth s.mode) then renderAll s yes else renderAll s no
  | .loop target source condition body otherwise => do
    let ds ← (← source.eval s).toParts s.mode
    let ds ← ds.filterM (passes s.push target condition)
    if ds.isEmpty then renderAll s otherwise
    else
      let turn (state : String × Scope) (i : Datum × Nat) : Except Fault (String × Scope) := do
        let s ← (state.2.setTurn i.2 ds.length).bind i.1 target
        let (t, s) ← renderAll s body
        return (state.1 ++ t, s)
      let (t, s) ← ds.zipIdx.foldlM turn ("", s.push)
      return (t, s.pop)
  | .assign target e => do
    let s ← s.bind (← e.eval s) target
    return ("", s)
  | .capture name body => do
    let (t, s) ← renderAll s body
    return ("", s.set name (.text t))
  | .include e ignoreMissing => do
    return (← includeResult ignoreMissing (← e.eval s), s)

def renderAll (s : Scope) : List Node → Except Fault (String × Scope)
  | [] => .ok ("", s)
  | n :: rest => do
    let (t, s) ← n.render s
    let (u, s) ← renderAll s rest
    return (t ++ u, s)

end

def renderText (mode : Mode) (values : Dict) (source : String) : Except Fault String := do
  let nodes ← parse source
  let (t, _) ← renderAll { mode, values := Datum.ofEntries values } nodes
  return t

end ReplicaLoad.Template

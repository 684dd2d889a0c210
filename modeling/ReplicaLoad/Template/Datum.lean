-- Data inside templates. What the expressions of a template stand for. Besides
-- the document values there is the undefined datum, which the strict mode
-- refuses wherever it would be used, and the state of a loop. The keys of a
-- dictionary may be any data. Truth and numbers have booleans as zero and one.
import ReplicaLoad.Decimal.Notation
import ReplicaLoad.Text.Quoted
import ReplicaLoad.Value.Basic

namespace ReplicaLoad.Template

/-- Whether a use of the undefined datum is refused. -/
inductive Mode where
  | strict
  | lenient
  deriving DecidableEq

inductive Fault where
  | malformed
  | badEscape
  | undefinedValue
  | unknownFilter
  | unknownTest
  | unknownFunction
  | unknownMethod
  | invalidOperation
  | missingArgument
  | tooManyArguments
  | cannotUnpack
  | templateNotFound
  deriving DecidableEq, Repr

inductive Datum where
  /-- The missing value. A silent one comes from a choice without an alternative, and is allowed
  in the strict mode too. -/
  | undefined (silent : Bool)
  | none
  | bool (b : Bool)
  | int (n : Int)
  | float (x : Float)
  | text (s : String)
  | list (items : List Datum)
  | dict (entries : List (Datum × Datum))
  /-- The state of a loop: the index of the turn, the number of turns, and how many loops are
  around it. -/
  | turn (index length depth : Nat)
  deriving Inhabited

namespace Datum

def missing : Datum := .undefined false

mutual

def ofValue : Value → Datum
  | .null => .none
  | .bool b => .bool b
  | .int n => .int n
  | .float x => .float x
  | .text s => .text s
  | .list items => .list (ofValues items)
  | .dict entries => .dict (ofEntries entries)

def ofValues : List Value → List Datum
  | [] => []
  | v :: rest => ofValue v :: ofValues rest

def ofEntries : List (String × Value) → List (Datum × Datum)
  | [] => []
  | (k, v) :: rest => (.text k, ofValue v) :: ofEntries rest

end

def isUndefined : Datum → Bool
  | undefined _ => true
  | _ => false

/-- Whether a datum is one that the strict mode refuses. -/
def isRefused (mode : Mode) : Datum → Bool
  | undefined silent => mode = .strict && !silent
  | _ => false

def text? : Datum → Option String
  | text s => some s
  | _ => Option.none

/-- Truth: zero, empty and absent data are false. -/
def isTrue : Datum → Bool
  | undefined _ => false
  | none => false
  | bool b => b
  | int n => n ≠ 0
  | float x => x != 0.0
  | text s => s ≠ ""
  | list items => !items.isEmpty
  | dict entries => !entries.isEmpty
  | turn _ _ _ => true

/-! ## Printing -/

/-- Floating point numbers have a point or an exponent, and are positional while the exponent of
the leading digit is between -4 and 15. -/
def numbers : Decimal.Notation where
  plainFrom := -4
  plainBelow := 16
  plusSign := false
  tie := .up
  nan := "NaN"
  infinite := "inf"

mutual

def inner : Datum → String
  | undefined _ => "Undefined"
  | none => "None"
  | bool b => if b then "True" else "False"
  | int n => toString n
  | float x => numbers.render x
  | text s => Text.quoted s
  | list items => "[" ++ innerItems items ++ "]"
  | dict entries => "\x7b" ++ innerEntries entries ++ "\x7d"
  | turn index length _ => s!"<loop {index}/{length}>"

def innerItems : List Datum → String
  | [] => ""
  | [d] => inner d
  | d :: rest => inner d ++ ", " ++ innerItems rest

def innerEntries : List (Datum × Datum) → String
  | [] => ""
  | [(k, d)] => inner k ++ ": " ++ inner d
  | (k, d) :: rest => inner k ++ ": " ++ inner d ++ ", " ++ innerEntries rest

end

/-- A datum as it is printed: a text without quotes, and nothing for the undefined datum. -/
def print : Datum → String
  | undefined _ => ""
  | text s => s
  | d => inner d

/-! ## Numbers -/

def wholeNumber? (x : Float) : Option Int :=
  let b := Decimal.Binary.ofFloat x
  let sign (n : Nat) : Int := if Decimal.isNegative x then -(n : Int) else n
  if !Decimal.isFinite x then Option.none
  else if b.m % twoTo (-b.q).toNat ≠ 0 then Option.none
  else some (sign (b.m * twoTo b.q.toNat / twoTo (-b.q).toNat))

def fits (n : Int) : Bool := -(twoTo 127 : Int) ≤ n && n < twoTo 127

def int? : Datum → Option Int
  | bool b => some (if b then 1 else 0)
  | int n => some n
  | float x => (wholeNumber? x).filter fits
  | _ => Option.none

/-- A datum as a floating point number. Where loss matters, whole numbers have to be exact. -/
def float? (lossy : Bool) : Datum → Option Float
  | bool b => some (if b then 1.0 else 0.0)
  | int n =>
    let x := Float.ofInt n
    if lossy || wholeNumber? x = some n then some x else Option.none
  | float x => some x
  | _ => Option.none

inductive Pair where
  | ints (a b : Int)
  | floats (a b : Float)
  | texts (a b : String)

def pair? (lossy : Bool) (a b : Datum) : Option Pair :=
  match a, b with
  | text s, text t => some (.texts s t)
  | float x, b => (b.float? lossy).map (.floats x)
  | a, float y => (a.float? lossy).map fun x => .floats x y
  | a, b => match a.int?, b.int? with
    | some m, some n => some (.ints m n)
    | _, _ => Option.none

/-! ## Order -/

/-- The place of the kinds in the order of data of different kinds. -/
def rank : Datum → Nat
  | undefined _ => 0
  | none => 1
  | bool _ => 2
  | int _ => 3
  | float _ => 3
  | text _ => 4
  | list _ => 5
  | dict _ => 6
  | turn _ _ _ => 7

/-- The total order of floating point numbers: by sign, then by magnitude, undefined ones last. -/
def floatKey (x : Float) : Int :=
  let magnitude : Int := (x.toBits.toNat % twoTo 63 : Nat)
  if Decimal.isNegative x then -magnitude - 1 else magnitude

/-- The order of two data of which at least one is no collection. -/
def orderPlain (a b : Datum) : Ordering :=
  let values := match pair? false a b with
    | some (.ints m n) => compare m n
    | some (.floats x y) => compare (floatKey x) (floatKey y)
    | some (.texts s t) => compare s t
    | Option.none => .eq
  values.then (compare a.rank b.rank)

mutual

def order : Datum → Datum → Ordering
  | list xs, list ys => orderItems xs ys
  | dict xs, dict ys => orderEntries xs ys
  | a, b => orderPlain a b

def orderItems : List Datum → List Datum → Ordering
  | [], [] => .eq
  | [], _ :: _ => .lt
  | _ :: _, [] => .gt
  | x :: xs, y :: ys => (order x y).then (orderItems xs ys)

def orderEntries : List (Datum × Datum) → List (Datum × Datum) → Ordering
  | [], [] => .eq
  | [], _ :: _ => .lt
  | _ :: _, [] => .gt
  | (k, x) :: xs, (l, y) :: ys => ((order k l).then (order x y)).then (orderEntries xs ys)

end

mutual

def same : Datum → Datum → Bool
  | undefined _, undefined _ => true
  | none, none => true
  | list xs, list ys => sameItems xs ys
  | dict xs, dict ys => sameEntries xs ys
  | a, b => match pair? false a b with
    | some (.ints m n) => m = n
    | some (.floats x y) => x == y
    | some (.texts s t) => s = t
    | Option.none => false

def sameItems : List Datum → List Datum → Bool
  | [], [] => true
  | x :: xs, y :: ys => same x y && sameItems xs ys
  | _, _ => false

def sameEntries : List (Datum × Datum) → List (Datum × Datum) → Bool
  | [], [] => true
  | (k, x) :: xs, (l, y) :: ys => same k l && same x y && sameEntries xs ys
  | _, _ => false

end

/-! ## Parts -/

def lookup? (key : Datum) : List (Datum × Datum) → Option Datum
  | [] => Option.none
  | (k, d) :: rest => if order k key = .eq then some d else lookup? key rest

/-- Set an entry, at its place in the order of keys. -/
def insertEntry (key value : Datum) : List (Datum × Datum) → List (Datum × Datum)
  | [] => [(key, value)]
  | (k, d) :: rest =>
    match order key k with
    | .eq => (k, value) :: rest
    | .lt => (key, value) :: (k, d) :: rest
    | .gt => (k, d) :: insertEntry key value rest

/-- The dictionary of a list of entries, of which a later one counts. -/
def dictOf (entries : List (Datum × Datum)) : Datum :=
  .dict (entries.foldl (fun es e => insertEntry e.1 e.2 es) [])

def turnPart? (index length depth : Nat) : String → Option Datum
  | "index0" => some (.int index)
  | "index" => some (.int (index + 1))
  | "revindex0" => some (.int (length - index - 1 : Nat))
  | "revindex" => some (.int (length - index : Nat))
  | "first" => some (.bool (index = 0))
  | "last" => some (.bool (index + 1 = length))
  | "length" => some (.int length)
  | "depth0" => some (.int depth)
  | "depth" => some (.int (depth + 1))
  | _ => Option.none

def attribute? (name : String) : Datum → Option Datum
  | dict entries => lookup? (.text name) entries
  | turn index length depth => turnPart? index length depth name
  | _ => Option.none

/-- The place that an index stands for, counted from the end if it is negative. -/
def place? (length : Nat) (i : Int) : Option Nat :=
  if 0 ≤ i then some i.toNat
  else if i.natAbs ≤ length then some (length - i.natAbs) else Option.none

def item? (d key : Datum) : Option Datum :=
  match d with
  | dict entries => lookup? key entries
  | list items => do items[← place? items.length (← key.int?)]?
  | text s => do
    let cs := s.toList
    let c ← cs[← place? cs.length (← key.int?)]?
    return .text (String.singleton c)
  | turn index length depth => key.text?.bind (turnPart? index length depth)
  | _ => Option.none

/-- The data that a loop over a datum runs through: the items of a list, the keys of a dictionary
and the characters of a text. -/
def parts? : Datum → Option (List Datum)
  | undefined _ => some []
  | none => some []
  | text s => some (s.toList.map fun c => .text (String.singleton c))
  | list items => some items
  | dict entries => some (entries.map (·.1))
  | _ => Option.none

end Datum

end ReplicaLoad.Template

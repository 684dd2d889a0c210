-- Filters, tests and functions. What can be applied to a datum by its name. A
-- filter that works on a text takes any datum as the text that it prints.
import ReplicaLoad.Template.Operation
import ReplicaLoad.Text.Blank
import ReplicaLoad.Text.LetterCase

namespace ReplicaLoad.Template

namespace Datum

/-- A datum as a text. The strict mode refuses the undefined datum. -/
def toText (mode : Mode) (d : Datum) : Except Fault String :=
  if d.isRefused mode then .error .undefinedValue else .ok d.print

/-- The parts of a datum. The strict mode refuses the undefined datum. -/
def toParts (mode : Mode) (d : Datum) : Except Fault (List Datum) :=
  if d.isRefused mode then .error .undefinedValue
  else match d.parts? with
    | some ds => .ok ds
    | Option.none => .error .invalidOperation

/-- The truth of a datum. The strict mode refuses the undefined datum. -/
def toTruth (mode : Mode) (d : Datum) : Except Fault Bool :=
  if d.isRefused mode then .error .undefinedValue else .ok d.isTrue

def toInt (d : Datum) : Except Fault Int :=
  match d.int? with
  | some n => .ok n
  | Option.none => .error .invalidOperation

def toBool : Datum → Except Fault Bool
  | .bool b => .ok b
  | _ => .error .invalidOperation

def optional {α : Type} (read : Datum → Except Fault α) : Option Datum → Except Fault (Option α)
  | Option.none => .ok Option.none
  | some (.undefined _) => .ok Option.none
  | some .none => .ok Option.none
  | some d => (read d).map some

/-! ## Texts -/

def endsWord (c : Char) : Bool :=
  Text.isBlank c || (0x21 ≤ c.toNat && c.toNat ≤ 0x7E && !c.isAlphanum)

/-- The first letter of every word in upper case and the others in lower case. -/
def titleFrom (starts : Bool) : List Char → List Char
  | [] => []
  | c :: rest =>
    if endsWord c then c :: titleFrom true rest
    else (if starts then Text.upperChar c else Text.lowerChar c) ++ titleFrom false rest

/-- The first letter in upper case and the others in lower case. -/
def capitalize (s : String) : String :=
  match s.toList with
  | [] => ""
  | c :: rest => String.ofList (Text.upperChar c) ++ Text.lower (String.ofList rest)

/-- The text with every occurrence of a part replaced, after `skip` characters. -/
def replaceFrom (part by_ : List Char) : Nat → List Char → List Char
  | 0, [] => if part.isEmpty then by_ else []
  | _ + 1, [] => []
  | skip + 1, _ :: rest => replaceFrom part by_ skip rest
  | 0, c :: rest =>
    if part.isEmpty then by_ ++ c :: replaceFrom part by_ 0 rest
    else if part.isPrefixOf (c :: rest) then by_ ++ replaceFrom part by_ (part.length - 1) rest
    else c :: replaceFrom part by_ 0 rest

/-- The texts of data with a separator before each one that follows some text. -/
def joinTexts (separator : String) (ds : List Datum) : String :=
  ds.foldl (fun s d => (if s = "" then s else s ++ separator) ++ d.print) ""

/-! ## Numbers -/

def powerOfTen (n : Int) : Float :=
  if 0 ≤ n then Decimal.toFloat false 1 n else 1.0 / Decimal.toFloat false 1 (-n)

/-- A number rounded to some decimal places, a half away from zero. -/
def roundTo (places : Int) (x : Float) : Float :=
  let scale := powerOfTen places
  (scale * x).round / scale

/-- The whole part of a floating point number, as far as it fits in 128 bits. -/
def wholePart (x : Float) : Int :=
  if x.isNaN then 0
  else if !Decimal.isFinite x then (if x < 0.0 then -(twoTo 127 : Int) else twoTo 127 - 1)
  else
    let n := (wholeNumber? (truncate x)).getD 0
    max (-(twoTo 127 : Int)) (min (twoTo 127 - 1) n)

def readInt (s : String) : Except Fault Int :=
  let (negative, rest) := match s.toList with
    | '-' :: rest => (true, rest)
    | '+' :: rest => (false, rest)
    | cs => (false, cs)
  let sign (n : Int) : Int := if negative then -n else n
  let n : Int := Decimal.digitsValue 0 rest
  if !rest.isEmpty && rest.all Char.isDigit && fits (sign n) then .ok (sign n)
  else match Decimal.readNumeral negative rest with
    | some (n, []) =>
      if n.whole.isEmpty && (n.fraction.getD []).isEmpty then .error .invalidOperation
      else .ok (wholePart n.toFloat)
    | _ => .error .invalidOperation

/-! ## Lists -/

/-- The key by which data are sorted and compared: without regard to case, unless that matters. -/
def caseKey (lower : String → String) (sensitive : Bool) : Datum → Datum
  | .text s => .text (if sensitive then s else lower s)
  | d => d

def lowerAscii (s : String) : String := String.ofList (s.toList.map Char.toLower)

def distinctFrom (key : Datum → Datum) (seen : List Datum) : List Datum → List Datum
  | [] => []
  | d :: rest =>
    if seen.any fun k => k.order (key d) = .eq then distinctFrom key seen rest
    else d :: distinctFrom key (key d :: seen) rest

def backwards : Datum → Outcome
  | .undefined silent => .ok (.undefined silent)
  | .none => .ok .none
  | .text s => .ok (.text (String.ofList s.toList.reverse))
  | .list items => .ok (.list items.reverse)
  | .dict entries => .ok (.list (entries.map (·.1)).reverse)
  | _ => .error .invalidOperation

end Datum

structure Arguments where
  plain : List Datum := []
  named : List (String × Datum) := []

namespace Arguments

/-- The only named arguments are some, and there are at most so many others. -/
def expect (a : Arguments) (most : Nat) (names : List String) : Except Fault Unit :=
  if most < a.plain.length then .error .tooManyArguments
  else if a.named.all fun e => names.contains e.1 then .ok ()
  else .error .tooManyArguments

def need (a : Arguments) (i : Nat) : Outcome :=
  match a.plain[i]? with
  | some d => .ok d
  | none => .error .missingArgument

def option (a : Arguments) (name : String) : Except Fault Bool :=
  (Datum.optional Datum.toBool ((a.named.find? (·.1 = name)).map (·.2))).map (·.getD false)

end Arguments

open Datum hiding none

def textFilter (mode : Mode) (f : String → String) (d : Datum) (a : Arguments) : Outcome := do
  let s ← d.toText mode
  a.expect 0 []
  return .text (f s)

/-- The default filter: another datum for the undefined one, or for every one that is not true. -/
def defaultFilter (d : Datum) (a : Arguments) : Outcome := do
  a.expect 2 []
  let other := a.plain[0]?.getD (.text "")
  let lax ← optional toBool a.plain[1]?
  if d.isUndefined || (lax.getD false && !d.isTrue) then return other else return d

def firstFilter : Datum → Outcome
  | .text s => .ok ((s.toList.head?.map fun c => .text (String.singleton c)).getD missing)
  | .list items => .ok (items.head?.getD missing)
  | .dict entries => .ok ((entries.head?.map (·.1)).getD missing)
  | _ => .error .invalidOperation

def lastFilter : Datum → Outcome
  | .text s => .ok ((s.toList.getLast?.map fun c => .text (String.singleton c)).getD missing)
  | .list items => .ok (items.getLast?.getD missing)
  | _ => .error .invalidOperation

/-- The number of the parts of a text, a list or a dictionary. -/
def lengthFilter : Datum → Outcome
  | .text s => .ok (.int s.length)
  | .list items => .ok (.int items.length)
  | .dict entries => .ok (.int entries.length)
  | _ => .error .invalidOperation

def magnitudeFilter : Datum → Outcome
  | .int n => .ok (.int n.natAbs)
  | .float x => .ok (.float x.abs)
  | _ => .error .invalidOperation

def roundFilter (d : Datum) (a : Arguments) : Outcome := do
  a.expect 1 []
  let places ← optional toInt a.plain[0]?
  match d with
  | .int n => return .int n
  | .float x => return .float (roundTo (places.getD 0) x)
  | _ => .error .invalidOperation

def intFilter : Datum → Outcome
  | .undefined _ => .ok (.int 0)
  | .none => .ok (.int 0)
  | .bool b => .ok (.int (if b then 1 else 0))
  | .int n => .ok (.int n)
  | .float x => .ok (.int (wholePart x))
  | .text s => (readInt s).map .int
  | _ => .error .invalidOperation

def sortFilter (mode : Mode) (d : Datum) (a : Arguments) : Outcome := do
  let ds ← match d.toParts mode with
    | .ok ds => .ok ds
    | .error _ => .error .invalidOperation
  a.expect 0 ["reverse", "case_sensitive"]
  let reverse ← a.option "reverse"
  let sensitive ← a.option "case_sensitive"
  let key := caseKey lowerAscii sensitive
  let sorted := ds.mergeSort fun x y => (key x).order (key y) ≠ .gt
  return .list (if reverse then sorted.reverse else sorted)

def uniqueFilter (mode : Mode) (d : Datum) (a : Arguments) : Outcome := do
  a.expect 0 ["case_sensitive"]
  let sensitive ← a.option "case_sensitive"
  let ds ← d.toParts mode
  return .list (distinctFrom (caseKey Text.lower sensitive) [] ds)

/-- The texts of the data with a separator between them. -/
def joinFilter (mode : Mode) (d : Datum) (a : Arguments) : Outcome := do
  a.expect 1 []
  let separator ← optional (toText mode) a.plain[0]?
  match d.toParts mode with
  | .ok ds => return .text (joinTexts (separator.getD "") ds)
  | .error _ => .error .invalidOperation

/-- The entries of a dictionary as lists of a key and a value. -/
def itemsFilter : Datum → Outcome
  | .dict entries => .ok (.list (entries.map fun e => .list [e.1, e.2]))
  | _ => .error .invalidOperation

/-- A text without some characters at its start and end; without white space if none are given. -/
def trimFilter (mode : Mode) (d : Datum) (a : Arguments) : Outcome := do
  let s ← d.toText mode
  a.expect 1 []
  match (← optional (toText mode) a.plain[0]?) with
  | some chars => return .text (Text.trimBy (fun c => chars.toList.contains c) s)
  | none => return .text (Text.trim s)

def replaceFilter (mode : Mode) (d : Datum) (a : Arguments) : Outcome := do
  let s ← d.toText mode
  let part ← (← a.need 0).toText mode
  let by_ ← (← a.need 1).toText mode
  a.expect 2 []
  return .text (String.ofList (replaceFrom part.toList by_.toList 0 s.toList))

def bare (f : Datum → Outcome) (d : Datum) (a : Arguments) : Outcome := do
  a.expect 0 []
  f d

def filter? (mode : Mode) : String → Option (Datum → Arguments → Outcome)
  | "upper" => some (textFilter mode Text.upper)
  | "lower" => some (textFilter mode Text.lower)
  | "title" => some (textFilter mode fun s => String.ofList (titleFrom true s.toList))
  | "capitalize" => some (textFilter mode capitalize)
  | "trim" => some (trimFilter mode)
  | "replace" => some (replaceFilter mode)
  | "default" => some defaultFilter
  | "d" => some defaultFilter
  | "length" => some (bare lengthFilter)
  | "count" => some (bare lengthFilter)
  | "first" => some (bare firstFilter)
  | "last" => some (bare lastFilter)
  | "abs" => some (bare magnitudeFilter)
  | "round" => some roundFilter
  | "int" => some (bare intFilter)
  | "sort" => some (sortFilter mode)
  | "unique" => some (uniqueFilter mode)
  | "reverse" => some (bare backwards)
  | "join" => some (joinFilter mode)
  | "items" => some (bare itemsFilter)
  | _ => none

def test? : String → Option (Datum → Bool)
  | "defined" => some fun d => !d.isUndefined
  | "undefined" => some isUndefined
  | "none" => some fun d => match d with
    | .none => true
    | _ => false
  | "number" => some fun d => match d with
    | .int _ => true
    | .float _ => true
    | _ => false
  | "string" => some fun d => d.text?.isSome
  | _ => none

def rangeLimit : Nat := 100000

/-- A bound or a step of a range: a natural number of 32 bits. -/
def toCount (d : Datum) : Except Fault Nat := do
  let n ← d.toInt
  if 0 ≤ n && n < twoTo 32 then .ok n.toNat else .error .invalidOperation

/-- The list of the natural numbers from a lower bound, which is zero unless two are given, up to an
upper bound, by a step. -/
def rangeFunction (a : Arguments) : Outcome := do
  let first ← toCount (← a.need 0)
  let second ← optional toCount a.plain[1]?
  let step := (← optional toCount a.plain[2]?).getD 1
  a.expect 3 []
  let (low, high) := match second with
    | some high => (first, high)
    | none => (0, first)
  if step = 0 then .error .invalidOperation
  else
    let count := (high - low + step - 1) / step
    if rangeLimit < count then .error .invalidOperation
    else return .list ((List.range count).map fun i => .int (low + i * step : Nat))

end ReplicaLoad.Template

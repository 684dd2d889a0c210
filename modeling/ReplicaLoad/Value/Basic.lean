-- Values. The values that documents, templates and objects are made of: the
-- JSON values, with whole numbers and floating point numbers kept apart. A
-- dictionary is a list of entries in ascending key order; `Dict.insert` keeps
-- the order, and a later value of a key takes the place of an earlier one.

namespace ReplicaLoad

inductive Value where
  | null
  | bool (b : Bool)
  | int (n : Int)
  | float (x : Float)
  | text (s : String)
  | list (items : List Value)
  | dict (entries : List (String × Value))
  deriving Inhabited

/-- Named values in ascending key order. -/
abbrev Dict := List (String × Value)

namespace Dict

def get? (key : String) : Dict → Option Value
  | [] => none
  | (k, v) :: rest => if k = key then some v else get? key rest

/-- Set a key, at its place in the order. -/
def insert (key : String) (value : Value) : Dict → Dict
  | [] => [(key, value)]
  | (k, v) :: rest =>
    if k = key then (key, value) :: rest
    else if key < k then (key, value) :: (k, v) :: rest
    else (k, v) :: insert key value rest

/-- The dictionary of a list of entries, of which a later one counts. -/
def ofList (entries : List (String × Value)) : Dict :=
  entries.foldl (fun d e => insert e.1 e.2 d) []

theorem get?_insert (key key' : String) (value : Value) (d : Dict) :
    get? key' (insert key value d) = if key = key' then some value else get? key' d := by
  induction d with
  | nil => simp [insert, get?]
  | cons e rest ih =>
    obtain ⟨k, v⟩ := e
    by_cases hk : k = key
    · subst hk
      by_cases h : k = key' <;> simp [insert, get?, h]
    · by_cases hlt : key < k
      · simp [insert, hk, hlt, get?]
      · by_cases h : k = key'
        · subst h
          simp [insert, hk, hlt, get?, Ne.symm hk]
        · simp [insert, hk, hlt, get?, h, ih]

end Dict

namespace Value

def text? : Value → Option String
  | text s => some s
  | _ => none

def natBelow? (bound : Nat) : Value → Option Nat
  | int (.ofNat n) => if n < bound then some n else none
  | _ => none

def dict? : Value → Option Dict
  | dict entries => some entries
  | _ => none

def field? (v : Value) (key : String) : Option Value := v.dict?.bind (Dict.get? key)

def isNull : Value → Bool
  | null => true
  | _ => false

end Value

end ReplicaLoad

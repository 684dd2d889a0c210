-- Expressions and templates. The tree of a template. A template is a list of
-- nodes: texts, printed expressions, choices, loops and assignments. Loops and
-- choices hold lists of nodes again.
import ReplicaLoad.Template.Datum

namespace ReplicaLoad.Template

/-- An operator of two operands that are both evaluated. -/
inductive Operator where
  | add
  | subtract
  | multiply
  | divide
  | floorDivide
  | remainder
  | power
  | join
  | equal
  | different
  | less
  | lessEqual
  | greater
  | greaterEqual
  | contained
  deriving DecidableEq

inductive Expr where
  | constant (d : Datum)
  | variable (name : String)
  | list (items : List Expr)
  | dict (keys values : List Expr)
  | attribute (e : Expr) (name : String)
  | item (e key : Expr)
  /-- A part of a sequence; the bounds and the step may be the null constant. -/
  | slice (e start stop step : Expr)
  | function (name : String) (args : List Expr) (names : List String) (named : List Expr)
  | method (e : Expr) (name : String) (args : List Expr)
  | call (e : Expr) (args : List Expr)
  | filter (e : Expr) (name : String) (args : List Expr) (names : List String) (named : List Expr)
  | test (e : Expr) (name : String) (args : List Expr)
  | negative (e : Expr)
  | not (e : Expr)
  | and (a b : Expr)
  | or (a b : Expr)
  | binary (op : Operator) (a b : Expr)
  | choose (condition yes no : Expr)
  deriving Inhabited

/-- The names that a loop or an assignment gives to a datum, or to the parts of a list. -/
inductive Target where
  | name (s : String)
  | parts (targets : List Target)
  deriving Inhabited

inductive Node where
  | text (s : String)
  | print (e : Expr)
  | choose (condition : Expr) (yes no : List Node)
  /-- A loop over the parts of a datum that pass a filter, with nodes for the case that there are
  none. -/
  | loop (target : Target) (source filter : Expr) (body otherwise : List Node)
  | assign (target : Target) (e : Expr)
  /-- An assignment of what nodes print. -/
  | capture (name : String) (body : List Node)
  /-- Another template, which is never there. -/
  | include (e : Expr) (ignoreMissing : Bool)
  deriving Inhabited

end ReplicaLoad.Template

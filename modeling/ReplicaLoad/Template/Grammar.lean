-- The grammar of templates. `Expr.ofTokens?` reads an expression, and `parse` a
-- whole template. Operators bind, from the loosest to the tightest: a choice,
-- `or`, `and`, `not`, comparisons, sums, `~`, products, powers, the sign, and
-- then attributes, items, calls, filters and tests. Chains of one level group
-- to the left.
import ReplicaLoad.Template.Expression
import ReplicaLoad.Template.Token

namespace ReplicaLoad.Template

abbrev Reading := Option (Expr × List Token)

inductive Level where
  | disjunction
  | conjunction
  | sum
  | join
  | product
  | power

/-- What an operator of a level makes of its operands. -/
def Level.operator? : Level → Token → Option (Expr → Expr → Expr)
  | .disjunction, .name "or" => some .or
  | .conjunction, .name "and" => some .and
  | .sum, .mark "+" => some (.binary .add)
  | .sum, .mark "-" => some (.binary .subtract)
  | .join, .mark "~" => some (.binary .join)
  | .product, .mark "*" => some (.binary .multiply)
  | .product, .mark "/" => some (.binary .divide)
  | .product, .mark "//" => some (.binary .floorDivide)
  | .product, .mark "%" => some (.binary .remainder)
  | .power, .mark "**" => some (.binary .power)
  | _, _ => none

/-- What a comparison at the start of tokens makes of its operands, and the tokens after it. -/
def comparison? : List Token → Option ((Expr → Expr → Expr) × List Token)
  | .mark "==" :: ts => some (.binary .equal, ts)
  | .mark "!=" :: ts => some (.binary .different, ts)
  | .mark "<" :: ts => some (.binary .less, ts)
  | .mark "<=" :: ts => some (.binary .lessEqual, ts)
  | .mark ">" :: ts => some (.binary .greater, ts)
  | .mark ">=" :: ts => some (.binary .greaterEqual, ts)
  | .name "in" :: ts => some (.binary .contained, ts)
  | .name "not" :: .name "in" :: ts => some (fun a b => .not (.binary .contained a b), ts)
  | _ => none

def Expr.called (e : Expr) (args : List Expr) (names : List String) (named : List Expr) : Expr :=
  match e with
  | .variable name => .function name args names named
  | .attribute e name => .method e name (args ++ named)
  | e => .call e (args ++ named)

/-- The argument of a test that is written without brackets can begin with a token. -/
def beginsArgument : Token → Bool
  | .name s => !(["and", "or", "else", "is", "in", "not", "if"].contains s)
  | .mark m => m = "[" || m = "\x7b"
  | _ => true

def Expr.null : Expr := .constant .none

mutual

def expr (fuel : Nat) (ts : List Token) : Reading :=
  match fuel with
  | 0 => none
  | fuel + 1 => do
    let (e, ts) ← chain fuel .disjunction ts
    choices fuel e ts

def choices (fuel : Nat) (e : Expr) (ts : List Token) : Reading :=
  match fuel with
  | 0 => none
  | fuel + 1 => match ts with
    | .name "if" :: ts => do
      let (c, ts) ← chain fuel .disjunction ts
      match ts with
      | .name "else" :: ts =>
        let (no, ts) ← expr fuel ts
        choices fuel (.choose c e no) ts
      | ts => choices fuel (.choose c e (.constant (.undefined true))) ts
    | ts => some (e, ts)

def chain (fuel : Nat) (level : Level) (ts : List Token) : Reading :=
  match fuel with
  | 0 => none
  | fuel + 1 => do
    let (e, ts) ← operand fuel level ts
    chained fuel level e ts

def chained (fuel : Nat) (level : Level) (e : Expr) (ts : List Token) : Reading :=
  match fuel with
  | 0 => none
  | fuel + 1 => match ts with
    | [] => some (e, [])
    | t :: rest => match level.operator? t with
      | some op => do
        let (b, rest) ← operand fuel level rest
        chained fuel level (op e b) rest
      | none => some (e, t :: rest)

def operand (fuel : Nat) (level : Level) (ts : List Token) : Reading :=
  match fuel with
  | 0 => none
  | fuel + 1 => match level with
    | .disjunction => chain fuel .conjunction ts
    | .conjunction => denial fuel ts
    | .sum => chain fuel .join ts
    | .join => chain fuel .product ts
    | .product => chain fuel .power ts
    | .power => do
      let (e, ts) ← signed fuel ts
      let (e, ts) ← access fuel e ts
      filters fuel e ts

def denial (fuel : Nat) (ts : List Token) : Reading :=
  match fuel with
  | 0 => none
  | fuel + 1 => match ts with
    | .name "not" :: ts => do
      let (e, ts) ← denial fuel ts
      return (.not e, ts)
    | ts => do
      let (e, ts) ← chain fuel .sum ts
      comparisons fuel e ts

def comparisons (fuel : Nat) (e : Expr) (ts : List Token) : Reading :=
  match fuel with
  | 0 => none
  | fuel + 1 => match comparison? ts with
    | some (op, ts) => do
      let (b, ts) ← chain fuel .sum ts
      comparisons fuel (op e b) ts
    | none => some (e, ts)

def signed (fuel : Nat) (ts : List Token) : Reading :=
  match fuel with
  | 0 => none
  | fuel + 1 => match ts with
    | .mark "-" :: ts => do
      let (e, ts) ← signed fuel ts
      return (.negative e, ts)
    | ts => atom fuel ts

/-- A constant, a variable, a list, a dictionary, or an expression in brackets. -/
def atom (fuel : Nat) (ts : List Token) : Reading :=
  match fuel with
  | 0 => none
  | fuel + 1 => match ts with
    | .name "true" :: ts | .name "True" :: ts => some (.constant (.bool true), ts)
    | .name "false" :: ts | .name "False" :: ts => some (.constant (.bool false), ts)
    | .name "none" :: ts | .name "None" :: ts => some (.null, ts)
    | .name s :: ts => some (.variable s, ts)
    | .text s :: ts => some (.constant (.text s), ts)
    | .int n :: ts => some (.constant (.int n), ts)
    | .float x :: ts => some (.constant (.float x), ts)
    | .mark "[" :: ts => do
      let (items, ts) ← sequence fuel "]" ts
      return (.list items, ts)
    | .mark "(" :: .mark ")" :: ts => some (.list [], ts)
    | .mark "(" :: ts => do
      let (e, ts) ← expr fuel ts
      match ts with
      | .mark ")" :: ts => return (e, ts)
      | .mark "," :: ts =>
        let (items, ts) ← sequence fuel ")" ts
        return (.list (e :: items), ts)
      | _ => none
    | .mark "\x7b" :: ts => do
      let (keys, values, ts) ← pairs fuel ts
      return (.dict keys values, ts)
    | _ => none

/-- Expressions with commas between them, up to a closing mark. -/
def sequence (fuel : Nat) (close : String) (ts : List Token) : Option (List Expr × List Token) :=
  match fuel with
  | 0 => none
  | fuel + 1 => match ts with
    | .mark m :: rest =>
      if m = close then some ([], rest) else do
        let (e, ts) ← expr fuel ts
        let (es, ts) ← sequenceRest fuel close ts
        return (e :: es, ts)
    | ts => do
      let (e, ts) ← expr fuel ts
      let (es, ts) ← sequenceRest fuel close ts
      return (e :: es, ts)

/-- What follows an item: a comma, or the closing mark. -/
def sequenceRest (fuel : Nat) (close : String) (ts : List Token) :
    Option (List Expr × List Token) :=
  match fuel with
  | 0 => none
  | fuel + 1 => match ts with
    | .mark m :: rest =>
      if m = close then some ([], rest) else if m = "," then sequence fuel close rest else none
    | _ => none

def pairs (fuel : Nat) (ts : List Token) : Option (List Expr × List Expr × List Token) :=
  match fuel with
  | 0 => none
  | fuel + 1 => match ts with
    | .mark "\x7d" :: ts => some ([], [], ts)
    | ts => do
      let (k, ts) ← expr fuel ts
      match ts with
      | .mark ":" :: ts =>
        let (v, ts) ← expr fuel ts
        match ts with
        | .mark "\x7d" :: ts => return ([k], [v], ts)
        | .mark "," :: ts =>
          let (ks, vs, ts) ← pairs fuel ts
          return (k :: ks, v :: vs, ts)
        | _ => none
      | _ => none

/-- The attributes, items and calls after an expression. -/
def access (fuel : Nat) (e : Expr) (ts : List Token) : Reading :=
  match fuel with
  | 0 => none
  | fuel + 1 => match ts with
    | .mark "." :: .name s :: ts => access fuel (.attribute e s) ts
    | .mark "." :: _ => none
    | .mark "[" :: ts => do
      let (e, ts) ← subscript fuel e ts
      access fuel e ts
    | .mark "(" :: ts => do
      let (args, names, named, ts) ← arguments fuel ts
      access fuel (e.called args names named) ts
    | ts => some (e, ts)

def subscript (fuel : Nat) (e : Expr) (ts : List Token) : Reading :=
  match fuel with
  | 0 => none
  | fuel + 1 => do
    let (start, ts) ← bound fuel ts
    match start, ts with
    | some key, .mark "]" :: ts => return (.item e key, ts)
    | start, .mark ":" :: ts =>
      let (stop, ts) ← bound fuel ts
      match ts with
      | .mark "]" :: ts => return (.slice e (start.getD .null) (stop.getD .null) .null, ts)
      | .mark ":" :: ts =>
        let (step, ts) ← bound fuel ts
        match ts with
        | .mark "]" :: ts =>
          return (.slice e (start.getD .null) (stop.getD .null) (step.getD .null), ts)
        | _ => none
      | _ => none
    | _, _ => none

def bound (fuel : Nat) (ts : List Token) : Option (Option Expr × List Token) :=
  match fuel with
  | 0 => none
  | fuel + 1 => match ts with
    | .mark ":" :: rest => some (none, .mark ":" :: rest)
    | .mark "]" :: rest => some (none, .mark "]" :: rest)
    | ts => do
      let (e, ts) ← expr fuel ts
      return (some e, ts)

/-- The arguments of a call after its opening bracket: those without a name, then the names, and
the arguments with these names. -/
def arguments (fuel : Nat) (ts : List Token) :
    Option (List Expr × List String × List Expr × List Token) :=
  match fuel with
  | 0 => none
  | fuel + 1 => match ts with
    | .mark ")" :: ts => some ([], [], [], ts)
    | .name s :: .mark "=" :: ts => do
      let (e, ts) ← expr fuel ts
      let (args, names, named, ts) ← argumentsRest fuel ts
      if args.isEmpty then return ([], s :: names, e :: named, ts) else none
    | ts => do
      let (e, ts) ← expr fuel ts
      let (args, names, named, ts) ← argumentsRest fuel ts
      return (e :: args, names, named, ts)

def argumentsRest (fuel : Nat) (ts : List Token) :
    Option (List Expr × List String × List Expr × List Token) :=
  match fuel with
  | 0 => none
  | fuel + 1 => match ts with
    | .mark ")" :: ts => some ([], [], [], ts)
    | .mark "," :: ts => arguments fuel ts
    | _ => none

def filters (fuel : Nat) (e : Expr) (ts : List Token) : Reading :=
  match fuel with
  | 0 => none
  | fuel + 1 => match ts with
    | .mark "|" :: .name s :: .mark "(" :: ts => do
      let (args, names, named, ts) ← arguments fuel ts
      filters fuel (.filter e s args names named) ts
    | .mark "|" :: .name s :: ts => filters fuel (.filter e s [] [] []) ts
    | .mark "|" :: _ => none
    | .name "is" :: .name "not" :: .name s :: ts => do
      let (args, ts) ← testArguments fuel ts
      filters fuel (.not (.test e s args)) ts
    | .name "is" :: .name s :: ts => do
      let (args, ts) ← testArguments fuel ts
      filters fuel (.test e s args) ts
    | .name "is" :: _ => none
    | ts => some (e, ts)

/-- The arguments of a test: in brackets, or a single one without. -/
def testArguments (fuel : Nat) (ts : List Token) : Option (List Expr × List Token) :=
  match fuel with
  | 0 => none
  | fuel + 1 => match ts with
    | .mark "(" :: ts => do
      let (args, names, named, ts) ← arguments fuel ts
      if names.isEmpty then return (args ++ named, ts) else none
    | t :: ts =>
      if beginsArgument t then do
        let (e, ts) ← signed fuel (t :: ts)
        let (e, ts) ← access fuel e ts
        return ([e], ts)
      else some ([], t :: ts)
    | [] => some ([], [])

end

/-- Enough for every token to pass through all levels. -/
def Token.fuel (ts : List Token) : Nat := 24 * (ts.length + 1)

def Expr.read? (ts : List Token) : Reading := expr (Token.fuel ts) ts

def Expr.ofTokens? (ts : List Token) : Option Expr := do
  let (e, rest) ← Expr.read? ts
  if rest.isEmpty then some e else none

/-! ## Statements -/

/-- The names that cannot be assigned to. -/
def reservedNames : List String :=
  ["true", "True", "false", "False", "none", "None", "loop", "self"]

mutual

/-- The target of an assignment: a name, or names with commas between them. -/
def target (fuel : Nat) (ts : List Token) : Option (Target × List Token) :=
  match fuel with
  | 0 => none
  | fuel + 1 => do
    let (first, ts) ← targetPart fuel ts
    match ts with
    | .mark "," :: ts =>
      let (more, ts) ← targetParts fuel ts
      return (.parts (first :: more), ts)
    | ts => return (first, ts)

def targetPart (fuel : Nat) (ts : List Token) : Option (Target × List Token) :=
  match fuel with
  | 0 => none
  | fuel + 1 => match ts with
    | .name s :: ts => if reservedNames.contains s then none else some (.name s, ts)
    | .mark "(" :: ts => do
      let (t, ts) ← target fuel ts
      match ts with
      | .mark ")" :: ts => return (t, ts)
      | _ => none
    | _ => none

/-- The parts of a target after a comma, of which the last one can be left out. -/
def targetParts (fuel : Nat) (ts : List Token) : Option (List Target × List Token) :=
  match fuel with
  | 0 => none
  | fuel + 1 => match ts with
    | .name "in" :: rest => some ([], .name "in" :: rest)
    | .mark ")" :: rest => some ([], .mark ")" :: rest)
    | [] => some ([], [])
    | ts => do
      let (first, ts) ← targetPart fuel ts
      match ts with
      | .mark "," :: ts =>
        let (more, ts) ← targetParts fuel ts
        return (first :: more, ts)
      | ts => return ([first], ts)

end

/-- What a loop runs over: its target, its source and its filter. -/
def loopHead? (ts : List Token) : Option (Target × Expr × Expr) := do
  let (t, ts) ← target (Token.fuel ts) ts
  match ts with
  | .name "in" :: ts =>
    let (source, ts) ← chain (Token.fuel ts) .disjunction ts
    match ts with
    | [] => some (t, source, .constant (.bool true))
    | .name "if" :: ts => do
      let condition ← Expr.ofTokens? ts
      some (t, source, condition)
    | _ => none
  | _ => none

def assignment? : List Token → Option Node
  | .mark "(" :: ts => do
    let (t, ts) ← target (Token.fuel ts) ts
    match ts with
    | .mark ")" :: .mark "=" :: ts => return .assign t (← Expr.ofTokens? ts)
    | _ => none
  | .name s :: .mark "=" :: ts =>
    if reservedNames.contains s then none
    else (Expr.ofTokens? ts).map (.assign (.name s))
  | _ => none

def inclusion? (ts : List Token) : Option Node := do
  let (e, ts) ← Expr.read? ts
  match ts with
  | [] => some (.include e false)
  | [.name "ignore", .name "missing"] => some (.include e true)
  | _ => none

/-- The nodes up to a statement that ends them: the word of that statement and its other tokens,
and the pieces after it. -/
abbrev Block := Option (List Node × Option (String × List Token) × List Piece)

mutual

/-- The nodes up to a statement that begins with one of some words, or up to the end. -/
def block (fuel : Nat) (ends : List String) (ps : List Piece) : Block :=
  match fuel with
  | 0 => none
  | fuel + 1 => match ps with
    | [] => some ([], none, [])
    | .text s :: ps => do
      let (ns, closing, ps) ← block fuel ends ps
      return (.text s :: ns, closing, ps)
    | .print ts :: ps => do
      let e ← Expr.ofTokens? ts
      let (ns, closing, ps) ← block fuel ends ps
      return (.print e :: ns, closing, ps)
    | .statement (.name word :: ts) :: ps =>
      if ends.contains word then some ([], some (word, ts), ps) else do
        let (n, ps) ← statement fuel word ts ps
        let (ns, closing, ps) ← block fuel ends ps
        return (n :: ns, closing, ps)
    | .statement _ :: _ => none

def statement (fuel : Nat) (word : String) (ts : List Token) (ps : List Piece) :
    Option (Node × List Piece) :=
  match fuel with
  | 0 => none
  | fuel + 1 => match word with
    | "if" => branch fuel ts ps
    | "for" => do
      let (t, source, condition) ← loopHead? ts
      let (body, closing, ps) ← block fuel ["endfor", "else"] ps
      match closing with
      | some ("endfor", []) => return (.loop t source condition body [], ps)
      | some ("else", []) =>
        let (otherwise, closing, ps) ← block fuel ["endfor"] ps
        match closing with
        | some ("endfor", []) => return (.loop t source condition body otherwise, ps)
        | _ => none
      | _ => none
    | "set" => match ts with
      | [.name s] =>
        if reservedNames.contains s then none else do
          let (body, closing, ps) ← block fuel ["endset"] ps
          match closing with
          | some (_, []) => return (.capture s body, ps)
          | _ => none
      | ts => (assignment? ts).map fun n => (n, ps)
    | "include" => (inclusion? ts).map fun n => (n, ps)
    | _ => none

/-- The node of a condition, with the branches that follow it. -/
def branch (fuel : Nat) (ts : List Token) (ps : List Piece) : Option (Node × List Piece) :=
  match fuel with
  | 0 => none
  | fuel + 1 => do
    let c ← Expr.ofTokens? ts
    let (yes, closing, ps) ← block fuel ["endif", "else", "elif"] ps
    match closing with
    | some ("endif", []) => return (.choose c yes [], ps)
    | some ("else", []) =>
      let (no, closing, ps) ← block fuel ["endif"] ps
      match closing with
      | some ("endif", []) => return (.choose c yes no, ps)
      | _ => none
    | some ("elif", ts) =>
      let (n, ps) ← branch fuel ts ps
      return (.choose c yes [n], ps)
    | _ => none

end

def parse (source : String) : Except Fault (List Node) := do
  let ps ← pieces source
  match block (3 * (ps.length + 1)) [] ps with
  | some (ns, none, []) => .ok ns
  | _ => .error .malformed

end ReplicaLoad.Template

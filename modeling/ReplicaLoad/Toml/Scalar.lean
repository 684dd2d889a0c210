-- Scalars in TOML. Texts in single or double quotes, on one line or on several,
-- and the words without quotes: booleans, numbers, dates and times. A date or
-- time is read as its text in standard form.
import ReplicaLoad.Decimal.Notation
import ReplicaLoad.Text.Digits
import ReplicaLoad.Value.Basic

namespace ReplicaLoad.Toml

/-! ## Texts -/

/-- Whether a character can stand in a text or a comment on one line. -/
def isPlain (c : Char) : Bool := c = '\t' || (0x20 ≤ c.toNat && c.toNat ≠ 0x7F)

/-- Read a text in single quotes after its opening quote. Nothing is special in it. -/
def readLiteral (acc : List Char) : List Char → Option (String × List Char)
  | [] => none
  | c :: rest =>
    if c = '\'' then some (String.ofList acc.reverse, rest)
    else if isPlain c then readLiteral (c :: acc) rest
    else none

def readEscape : List Char → Option (Char × List Char)
  | 'u' :: a :: b :: c :: d :: rest =>
    ((Text.digitsIn? 16 [a, b, c, d]).bind Text.charOfCode?).map fun x => (x, rest)
  | 'U' :: a :: b :: c :: d :: e :: f :: g :: h :: rest =>
    ((Text.digitsIn? 16 [a, b, c, d, e, f, g, h]).bind Text.charOfCode?).map fun x => (x, rest)
  | 'b' :: rest => some ('\x08', rest)
  | 't' :: rest => some ('\t', rest)
  | 'n' :: rest => some ('\n', rest)
  | 'f' :: rest => some ('\x0c', rest)
  | 'r' :: rest => some ('\r', rest)
  | '\x22' :: rest => some ('\x22', rest)
  | '\\' :: rest => some ('\\', rest)
  | _ => none

/-- Read a text in double quotes after its opening quote. -/
def readBasic : Nat → List Char → List Char → Option (String × List Char)
  | 0, _, _ => none
  | _, _, [] => none
  | fuel + 1, acc, c :: rest =>
    if c = '\x22' then some (String.ofList acc.reverse, rest)
    else if c = '\\' then (readEscape rest).bind fun (x, rest) => readBasic fuel (x :: acc) rest
    else if isPlain c then readBasic fuel (c :: acc) rest
    else none

/-- The rest of a text after one line break, if it begins with one. -/
def lineBreak? : List Char → Option (List Char)
  | '\n' :: rest => some rest
  | '\r' :: '\n' :: rest => some rest
  | _ => none

def skipBlanks (cs : List Char) : List Char := cs.dropWhile fun c => c = ' ' || c = '\t'

def skipSpace (cs : List Char) : List Char :=
  cs.dropWhile fun c => c = ' ' || c = '\t' || c = '\n' || c = '\r'

/-- Read a text on several lines after its opening quotes. Three quotes end it, and up to two more
before them belong to it. `escapes` tells whether a backslash is special; at the end of a line it
removes the white space that follows. -/
def readLines (quote : Char) (escapes : Bool) : Nat → List Char → List Char →
    Option (String × List Char)
  | 0, _, _ => none
  | _, _, [] => none
  | fuel + 1, acc, c :: rest =>
    if c = quote then
      let count := min 5 ((c :: rest).takeWhile (· = quote)).length
      if count < 3 then readLines quote escapes fuel (c :: acc) rest
      else
        let text := List.replicate (count - 3) quote ++ acc
        some (String.ofList text.reverse, (c :: rest).drop count)
    else if escapes && c = '\\' then
      match lineBreak? (skipBlanks rest) with
      | some rest => readLines quote escapes fuel acc (skipSpace rest)
      | none => (readEscape rest).bind fun (x, rest) => readLines quote escapes fuel (x :: acc) rest
    else match lineBreak? (c :: rest) with
      | some rest => readLines quote escapes fuel ('\n' :: acc) rest
      | none => if isPlain c then readLines quote escapes fuel (c :: acc) rest else none

/-- Read a text after its opening quote. A line break right after three quotes is dropped. -/
def readQuoted (quote : Char) (cs : List Char) : Option (String × List Char) :=
  let escapes := quote = '\x22'
  match cs with
  | a :: b :: rest =>
    if a = quote && b = quote then
      readLines quote escapes (rest.length + 1) [] ((lineBreak? rest).getD rest)
    else if escapes then readBasic (cs.length + 1) [] cs
    else readLiteral [] cs
  | _ => if escapes then readBasic (cs.length + 1) [] cs else readLiteral [] cs

/-! ## Numbers -/

def plainDigits? (isDigit : Char → Bool) : List Char → Option (List Char)
  | [] => none
  | [c] => if isDigit c then some [c] else none
  | c :: '_' :: d :: rest =>
    if isDigit c then (plainDigits? isDigit (d :: rest)).map (c :: ·) else none
  | c :: d :: rest => if isDigit c then (plainDigits? isDigit (d :: rest)).map (c :: ·) else none

/-- The digits of a decimal number before its point, which have no leading zero. -/
def wholeDigits? (cs : List Char) : Option (List Char) :=
  match plainDigits? Char.isDigit cs with
  | some ('0' :: _ :: _) => none
  | r => r

def splitSign : List Char → Bool × List Char
  | '-' :: rest => (true, rest)
  | '+' :: rest => (false, rest)
  | cs => (false, cs)

/-- The value of digits in a base, with underscores between them. -/
def based? (base : Nat) (cs : List Char) : Option Int :=
  ((plainDigits? (fun c => c ≠ '_') cs).bind (Text.digitsIn? base)).map fun n => (n : Int)

def int? (cs : List Char) : Option Int := do
  let n : Int ← match cs with
    | '0' :: 'x' :: rest => based? 16 rest
    | '0' :: 'o' :: rest => based? 8 rest
    | '0' :: 'b' :: rest => based? 2 rest
    | _ =>
      let (negative, rest) := splitSign cs
      (wholeDigits? rest).map fun ds =>
        let n : Int := Decimal.digitsValue 0 ds
        if negative then -n else n
  if -(twoTo 63 : Int) ≤ n && n < (twoTo 63 : Int) then some n else none

/-- The digits of an exponent with its mark, or nothing. -/
def exponentDigits? : List Char → Option (List Char)
  | [] => some []
  | e :: rest =>
    if e = 'e' || e = 'E' then
      let (negative, rest) := splitSign rest
      (plainDigits? Char.isDigit rest).map fun ds => if negative then 'e' :: '-' :: ds else 'e' :: ds
    else none

/-- A floating point number. It has digits on both sides of its point. -/
def float? (cs : List Char) : Option Float :=
  let (negative, unsigned) := splitSign cs
  let sign (x : Float) : Float := if negative then -x else x
  if unsigned = "inf".toList then some (sign (1.0 / 0.0))
  else if unsigned = "nan".toList then some (0.0 / 0.0)
  else do
    let isEnd (c : Char) : Bool := c = '.' || c = 'e' || c = 'E'
    let whole ← wholeDigits? (unsigned.takeWhile fun c => !isEnd c)
    let digits ← match unsigned.dropWhile fun c => !isEnd c with
      | '.' :: rest => do
        let isMark (c : Char) : Bool := c = 'e' || c = 'E'
        let fraction ← plainDigits? Char.isDigit (rest.takeWhile fun c => !isMark c)
        let exponent ← exponentDigits? (rest.dropWhile fun c => !isMark c)
        some (whole ++ '.' :: fraction ++ exponent)
      | [] => none
      | rest => (exponentDigits? rest).map (whole ++ ·)
    let (n, _) ← Decimal.readNumeral negative digits
    if Decimal.isFinite n.toFloat then some n.toFloat else none

/-! ## Dates and times -/

def readCount (count : Nat) (cs : List Char) : Option (Nat × List Char) :=
  let ds := cs.take count
  if ds.length = count && ds.all Char.isDigit then some (Decimal.digitsValue 0 ds, cs.drop count)
  else none

def daysIn (year month : Nat) : Nat :=
  if month = 2 then
    if year % 4 = 0 && (year % 100 ≠ 0 || year % 400 = 0) then 29 else 28
  else if month = 4 || month = 6 || month = 9 || month = 11 then 30
  else 31

def readDate (cs : List Char) : Option (List Char × List Char) := do
  let (year, rest) ← readCount 4 cs
  let '-' :: rest := rest | none
  let (month, rest) ← readCount 2 rest
  let '-' :: rest := rest | none
  let (day, rest) ← readCount 2 rest
  if 1 ≤ month && month ≤ 12 && 1 ≤ day && day ≤ daysIn year month then some (cs.take 10, rest)
  else none

/-- Read a time of the day, with nine digits after its point at most. -/
def readTime (cs : List Char) : Option (List Char × List Char) := do
  let (hour, rest) ← readCount 2 cs
  let ':' :: rest := rest | none
  let (minute, rest) ← readCount 2 rest
  let ':' :: rest := rest | none
  let (second, rest) ← readCount 2 rest
  if hour < 24 && minute < 60 && second ≤ 60 then
    match rest with
    | '.' :: rest =>
      let ds := rest.takeWhile Char.isDigit
      let fraction := ((ds.take 9).reverse.dropWhile (· = '0')).reverse
      if ds.isEmpty then none
      else some (cs.take 8 ++ (if fraction.isEmpty then [] else '.' :: fraction),
        rest.dropWhile Char.isDigit)
    | _ => some (cs.take 8, rest)
  else none

/-- The standard form of an offset from universal time, if the text is one. -/
def offset? (cs : List Char) : Option (List Char) :=
  match cs with
  | [] => some []
  | [c] => if c = 'Z' || c = 'z' then some ['Z'] else none
  | sign :: rest => do
    let (hour, rest) ← readCount 2 rest
    let ':' :: rest := rest | none
    let (minute, rest) ← readCount 2 rest
    if !rest.isEmpty || !(sign = '+' || sign = '-') || 24 ≤ hour || 60 ≤ minute then none
    else if hour = 0 && minute = 0 then some "+00:00".toList
    else some cs

/-- The standard form of a date, a time, or both, if the text is one. -/
def moment? (cs : List Char) : Option (List Char) :=
  match readDate cs with
  | some (date, []) => some date
  | some (date, mark :: rest) => do
    if !(mark = 'T' || mark = 't' || mark = ' ') then none
    else
      let (time, rest) ← readTime rest
      let offset ← offset? rest
      some (date ++ 'T' :: time ++ offset)
  | none => match readTime cs with
    | some (time, []) => some time
    | _ => none

/-! ## Words -/

def isWordChar (c : Char) : Bool :=
  c.isAlphanum || c = '_' || c = '-' || c = '+' || c = '.' || c = ':'

def wordValue? (cs : List Char) : Option Value :=
  if cs = "true".toList then some (.bool true)
  else if cs = "false".toList then some (.bool false)
  else match int? cs, float? cs, moment? cs with
    | some n, _, _ => some (.int n)
    | none, some x, _ => some (.float x)
    | none, none, some m => some (.text (String.ofList m))
    | none, none, none => none

/-- Read a word. A date goes on after one blank when a digit follows. -/
def readWord (cs : List Char) : Option (Value × List Char) :=
  let word := cs.takeWhile isWordChar
  let rest := cs.dropWhile isWordChar
  let (word, rest) := match rest with
    | ' ' :: c :: more =>
      if (readDate word).isSome && c.isDigit then
        (word ++ ' ' :: (c :: more).takeWhile isWordChar, (c :: more).dropWhile isWordChar)
      else (word, rest)
    | _ => (word, rest)
  (wordValue? word).map fun v => (v, rest)

end ReplicaLoad.Toml

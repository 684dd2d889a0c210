-- Expression tags as spans of text. A template that is only asked for the
-- identity of its object is freed of its expression tags before anything else
-- is done with it. A span begins at the first two opening braces of a text and
-- ends at the first two closing braces after them, whatever stands between;
-- where no closing braces follow, the text stays as it is.

namespace ReplicaLoad.Template

/-- The length of a text up to the end of its first two closing braces. -/
def closeAt? : List Char → Option Nat
  | '\x7d' :: '\x7d' :: _ => some 2
  | _ :: rest => (closeAt? rest).map (· + 1)
  | [] => none

def spanLength? : List Char → Option Nat
  | '\x7b' :: '\x7b' :: rest => (closeAt? rest).map (· + 2)
  | _ => none

/-- The text without its spans, after `skip` characters that belong to one. -/
def dropSpansFrom : Nat → List Char → List Char
  | _, [] => []
  | skip + 1, _ :: rest => dropSpansFrom skip rest
  | 0, c :: rest =>
    match spanLength? (c :: rest) with
    | some n => dropSpansFrom (n - 1) rest
    | none => c :: dropSpansFrom 0 rest

def dropSpans (source : String) : String := String.ofList (dropSpansFrom 0 source.toList)

end ReplicaLoad.Template

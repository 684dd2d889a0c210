-- File trees. Folders and files by their path, with the working folder as the
-- start of relative paths. A path is walked one step at a time: every step but
-- the last has to lead to a folder. A name of a step has at most 255 bytes and
-- no zero character.
import ReplicaLoad.Table

namespace ReplicaLoad

inductive FileFault where
  | notFound
  | unusable
  deriving DecidableEq

/-- A file, with its text unless its bytes are none, or a folder. -/
inductive FileEntry where
  | file (text : Option String)
  | folder
  deriving DecidableEq

/-- Entries by the names on the way to them. The way to an absolute path begins with a slash. -/
structure FileTree where
  entries : Table (List String) FileEntry := Table.empty

namespace FileTree

/-- A path inside a folder. An absolute path stands for itself. -/
def join (folder path : String) : String :=
  if path.startsWith "/" || folder = "" then path
  else if folder.endsWith "/" then folder ++ path
  else folder ++ "/" ++ path

/-- The texts between slashes; `name` holds the characters since the last one, last one first. -/
def splitSlashes (name : List Char) : List Char → List String
  | [] => [String.ofList name.reverse]
  | c :: rest =>
    if c = '/' then String.ofList name.reverse :: splitSlashes [] rest
    else splitSlashes (c :: name) rest

def route (path : String) : List String × List String :=
  (if path.startsWith "/" then ["/"] else [], splitSlashes [] path.toList)

/-- What is at a place. The folders around the working folder are there. -/
def entry? (t : FileTree) (place : List String) : Option FileEntry :=
  if place = ["/"] || place.all (· = "..") then some .folder else t.entries.get? place

def parent (place : List String) : List String :=
  if place = ["/"] then place
  else if place.all (· = "..") then place ++ [".."]
  else place.dropLast

def isName (s : String) : Bool := s.utf8ByteSize ≤ 255 && !s.toList.contains '\x00'

def walk (t : FileTree) (place : List String) : List String → Except FileFault (List String)
  | [] => .ok place
  | s :: rest =>
    if t.entry? place ≠ some .folder then .error .unusable
    else if s = "" || s = "." then t.walk place rest
    else if s = ".." then t.walk (parent place) rest
    else if !isName s then .error .unusable
    else if (t.entry? (place ++ [s])).isSome then t.walk (place ++ [s]) rest
    else .error .notFound

def find (t : FileTree) (path : String) : Except FileFault (List String) :=
  if path = "" then .error .notFound else t.walk (route path).1 (route path).2

def read (t : FileTree) (path : String) : Except FileFault String :=
  match t.find path with
  | .error e => .error e
  | .ok place => match t.entry? place with
    | some (.file (some s)) => .ok s
    | _ => .error .unusable

def write (t : FileTree) (path text : String) : Except FileFault FileTree :=
  let (start, names) := route path
  let name := names.getLastD ""
  if name = "" || name = "." || name = ".." || !isName name then .error .unusable
  else match t.walk start names.dropLast with
    | .error e => .error e
    | .ok place =>
      if t.entry? place ≠ some .folder || t.entry? (place ++ [name]) = some .folder then .error .unusable
      else .ok ⟨t.entries.put (place ++ [name]) (.file (some text))⟩

def place (t : FileTree) (path : String) (e : FileEntry) : FileTree :=
  let (start, names) := route path
  let names := names.filter fun s => s ≠ "" && s ≠ "."
  let folders := (List.range names.length).map fun i => start ++ names.take i
  let t := folders.foldl (fun (t : FileTree) p => ⟨t.entries.put p .folder⟩) t
  ⟨t.entries.put (start ++ names) e⟩

def remove (t : FileTree) (path : String) : FileTree :=
  match t.find path with
  | .ok place => ⟨t.entries.erase place⟩
  | .error _ => t

/-- The files in a folder with their texts, in ascending order of their names. -/
def filesIn (t : FileTree) (folder : String) : List (String × String) :=
  match t.find folder with
  | .error _ => []
  | .ok place =>
    let files := t.entries.entries.filterMap fun (p, e) => match e with
      | .file text => if p.dropLast = place then some (p.getLastD "", text.getD "") else none
      | .folder => none
    files.mergeSort fun a b => a.1 ≤ b.1

def pathOf : List String → String
  | "/" :: names => "/" ++ "/".intercalate names
  | names => "/".intercalate names

/-- The files that are not there with the same text before, by their paths. -/
def newTexts (t before : FileTree) : List (String × String) :=
  t.entries.entries.filterMap fun (place, e) => match e with
    | .file (some text) =>
      if before.entry? place = some e then none else some (pathOf place, text)
    | _ => none

end FileTree

end ReplicaLoad

-- First entries. The lines that a document begins with are the first entries of
-- its mapping. A name that a mapping has only once means what stands there; of
-- several values the last one counts.
import ReplicaLoad.Proofs.PlainLines
import ReplicaLoad.Yaml.Reading

namespace ReplicaLoad.Yaml

/-! ## Entries -/

def PlainLine.key (l : PlainLine) : String := String.ofList l.name

def PlainLine.entry (l : PlainLine) : Node × Node :=
  (.scalar none .plain l.key, .scalar none .plain (String.ofList l.word))

/-- What a word means. -/
def PlainLine.value? (l : PlainLine) : Option Value :=
  scalarValue none .plain (String.ofList l.word)

namespace Composer

variable {s s' : Composer} {fuel : Nat} {acc entries : List (Node × Node)} {rest : List Token}

/-- A node of an entry, which can be missing. -/
def entryNode (fuel : Nat) (s : Composer) : Option (Node × Composer) :=
  if s.nextIs [.key, .value, .blockEnd] then some (Node.nothing, s) else node fuel true true s

/-- The value of an entry, with its mark. -/
def entryValue (fuel : Nat) (s : Composer) : Option (Node × Composer) :=
  match s.tokens with
  | .value :: rest => entryNode fuel (s.go rest)
  | _ => some (Node.nothing, s)

theorem bind_entryValue (f : Node × Composer → Option (List (Node × Node) × Composer)) :
    (entryValue fuel s).bind f = match s.tokens with
      | .value :: rest =>
        if (s.go rest).nextIs [.key, .value, .blockEnd] then f (Node.nothing, s.go rest)
        else (node fuel true true (s.go rest)).bind f
      | _ => f (Node.nothing, s) := by
  unfold entryValue entryNode
  split
  · split
    · rfl
    · rfl
  · rfl

/-- A block mapping is read entry by entry. -/
theorem blockMapping_key (hs : s.tokens = .key :: rest) :
    blockMapping (fuel + 1) acc s = (entryNode fuel (s.go rest)).bind fun (k, s₁) =>
      (entryValue fuel s₁).bind fun (v, s₂) => blockMapping fuel ((k, v) :: acc) s₂ := by
  simp only [bind_entryValue]
  rw [blockMapping, hs]
  unfold entryNode
  dsimp only
  split
  · rfl
  · rfl

/-- A plain scalar without properties is a node. -/
theorem node_scalar {text : String} (hs : s.tokens = .scalar .plain text :: rest)
    (block indentless : Bool) :
    node (fuel + 1) block indentless s = some (.scalar none .plain text, s.go rest) := by
  unfold node
  simp [hs, properties, begin, finish]

theorem entryNode_scalar {text : String} (hs : s.tokens = .scalar .plain text :: rest) :
    entryNode (fuel + 1) s = some (.scalar none .plain text, s.go rest) := by
  unfold entryNode
  rw [if_neg (by simp [nextIs, hs]), node_scalar hs]

/-- Entries that have been read stay at the beginning. -/
theorem blockMapping_prefix (h : blockMapping fuel acc s = some (entries, s')) :
    acc.reverse <+: entries := by
  induction fuel generalizing acc s with
  | zero =>
    unfold blockMapping at h
    cases h
  | succ fuel ih =>
    by_cases hkey : ∃ rest, s.tokens = .key :: rest
    · obtain ⟨rest, hs⟩ := hkey
      rw [blockMapping_key hs] at h
      obtain ⟨⟨k, s₁⟩, -, h⟩ := Option.bind_eq_some_iff.mp h
      obtain ⟨⟨v, s₂⟩, -, h⟩ := Option.bind_eq_some_iff.mp h
      have hlater := ih h
      rw [List.reverse_cons] at hlater
      exact (List.prefix_append _ _).trans hlater
    · unfold blockMapping at h
      split at h
      · rename_i rest hs
        exact absurd ⟨rest, hs⟩ hkey
      · cases h
        exact List.prefix_rfl
      · cases h

/-- A plain line is read as one entry. -/
theorem blockMapping_line {line : PlainLine} (hs : s.tokens = line.tokens ++ rest) :
    blockMapping (fuel + 2) acc s = blockMapping (fuel + 1) (line.entry :: acc) (s.go rest) := by
  have hname : entryNode (fuel + 1) (s.go (line.tokens.tail ++ rest)) =
      some (.scalar none .plain line.key, s.go (line.tokens.tail.tail ++ rest)) :=
    entryNode_scalar rfl
  have hword : entryValue (fuel + 1) (s.go (line.tokens.tail.tail ++ rest)) =
      some (.scalar none .plain (String.ofList line.word), s.go rest) :=
    entryNode_scalar rfl
  have hkey : s.tokens = .key :: (line.tokens.tail ++ rest) := hs
  rw [blockMapping_key hkey, hname, Option.bind_some]
  dsimp only
  rw [hword]
  rfl

/-- Plain lines are read as entries. -/
theorem blockMapping_lines {lines : List PlainLine}
    (hs : s.tokens = lines.flatMap PlainLine.tokens ++ rest)
    (h : blockMapping fuel acc s = some (entries, s')) :
    acc.reverse ++ lines.map PlainLine.entry <+: entries := by
  induction lines generalizing fuel acc s with
  | nil => simpa using blockMapping_prefix h
  | cons line lines ih =>
    rw [List.flatMap_cons, List.append_assoc] at hs
    match fuel with
    | 0 =>
      unfold blockMapping at h
      cases h
    | 1 =>
      have hkey : s.tokens =
          .key :: (line.tokens.tail ++ (lines.flatMap PlainLine.tokens ++ rest)) := hs
      rw [blockMapping_key hkey] at h
      simp [entryNode, nextIs, go, node, PlainLine.tokens] at h
    | fuel + 2 =>
      rw [blockMapping_line hs] at h
      have hlater := ih rfl h
      rw [List.reverse_cons, List.append_assoc] at hlater
      exact hlater

/-- A block mapping is a node. -/
theorem node_mapping {n : Node} {indentless : Bool} (hs : s.tokens = .blockMappingStart :: rest)
    (h : node (fuel + 1) true indentless s = some (n, s')) :
    ∃ entries, n = .mapping none entries ∧
      blockMapping fuel [] (s.go rest) = some (entries, s') := by
  unfold node at h
  simp only [hs, properties, begin, finish, Option.bind_eq_bind, Option.bind_some, if_true,
    Option.pure_def] at h
  obtain ⟨⟨entries, s₁⟩, hentries, h⟩ := Option.bind_eq_some_iff.mp h
  cases h
  exact ⟨entries, rfl, hentries⟩

/-- A document of a block mapping has it as its root. -/
theorem content_mapping {d : Document} (hs : s.tokens = .blockMappingStart :: rest)
    (h : s.content = some d) :
    ∃ entries s₁ fuel, d.root = some (.mapping none entries) ∧
      blockMapping fuel [] (s.go rest) = some (entries, s₁) := by
  unfold content at h
  simp only [hs] at h
  obtain ⟨⟨n, s₁⟩, hn, h⟩ := Option.bind_eq_some_iff.mp h
  obtain ⟨entries, rfl, hentries⟩ := node_mapping hs hn
  refine ⟨entries, s₁, _, ?_, hentries⟩
  split at h
  · cases h
    rfl
  · cases h

end Composer

variable {d : Document} {s : String} {line : PlainLine} {lines : List PlainLine} {x : Char}
  {rest : List Char}

namespace Document

/-- A document that begins with plain lines is a mapping that begins with their entries. -/
theorem root_of_lines (hs : s.toList = (line :: lines).flatMap PlainLine.text ++ x :: rest)
    (hx : isSpace x = false) (hd : ofText? s = some d) :
    ∃ entries, d.root = some (.mapping none entries) ∧
      (line :: lines).map PlainLine.entry <+: entries := by
  unfold ofText? at hd
  obtain ⟨tokens, ht, hd⟩ := Option.bind_eq_some_iff.mp hd
  obtain ⟨more, rfl⟩ := tokens?_of_lines hs hx ht
  obtain ⟨entries, s₁, fuel, hroot, hentries⟩ := Composer.content_mapping rfl hd
  have hlines : [].reverse ++ (line :: lines).map PlainLine.entry <+: entries :=
    Composer.blockMapping_lines rfl hentries
  exact ⟨entries, hroot, hlines⟩

end Document

/-! ## Values -/

/-- Entries of other names leave a value alone. -/
theorem get?_foldl_of_notMem {key : String} {more : List (String × Value)} (d : Dict)
    (h : key ∉ more.map (·.1)) :
    Dict.get? key (more.foldl (fun d e => Dict.insert e.1 e.2 d) d) = Dict.get? key d := by
  induction more generalizing d with
  | nil => rfl
  | cons e more ih =>
    rw [List.map_cons, List.mem_cons, not_or] at h
    rw [List.foldl_cons, ih _ h.2, Dict.get?_insert, if_neg (Ne.symm h.1)]

/-- A name that stands once among the entries has the value that stands there. -/
theorem get?_ofList_of_count {pairs : List (String × Value)} {key : String} {v : Value}
    (hmem : (key, v) ∈ pairs) (hone : (pairs.map (·.1)).count key ≤ 1) :
    Dict.get? key (Dict.ofList pairs) = some v := by
  obtain ⟨before, after, rfl⟩ := List.append_of_mem hmem
  have hafter : key ∉ after.map (·.1) := by
    rw [List.map_append, List.map_cons, List.count_append, List.count_cons_self] at hone
    exact List.count_eq_zero.mp (by omega)
  unfold Dict.ofList
  rw [List.foldl_append, List.foldl_cons, get?_foldl_of_notMem _ hafter, Dict.get?_insert,
    if_pos rfl]

namespace Document

/-- The names of the entries that a document has at the top. -/
def names (d : Document) : List String :=
  match d.root with
  | some (.mapping _ entries) => entries.filterMap fun e => d.textOf e.1
  | _ => []

/-- What a document reads an entry as. -/
def pair? (d : Document) (depth : Nat) (e : Node × Node) : Option (String × Value) :=
  (d.textOf e.1).bind fun name => (d.value depth e.2).bind fun v => some (name, v)

theorem value_word (l : PlainLine) (depth : Nat) : d.value depth l.entry.2 = l.value? := by
  unfold Document.value
  rfl

/-- The value of a mapping holds the pairs of its entries. -/
theorem value_mapping {depth : Nat} {entries : List (Node × Node)} {v : Value}
    (h : d.value (depth + 1) (.mapping none entries) = some v) :
    ∃ pairs, v = .dict (Dict.ofList pairs) ∧ entries.map (d.pair? depth) = pairs.map some := by
  unfold Document.value at h
  obtain ⟨pairs, hpairs, rfl⟩ := Option.map_eq_some_iff.mp h
  exact ⟨pairs, rfl, map_of_mapM hpairs⟩

theorem filterMap_of_pairs {depth : Nat} {entries : List (Node × Node)}
    {pairs : List (String × Value)} (h : entries.map (d.pair? depth) = pairs.map some) :
    (entries.filterMap fun e => d.textOf e.1) = pairs.map (·.1) := by
  induction entries generalizing pairs with
  | nil =>
    cases List.map_eq_nil_iff.mp h.symm
    rfl
  | cons e entries ih =>
    obtain ⟨p, more, rfl, hp, hmore⟩ := List.map_eq_cons_iff.mp h.symm
    obtain ⟨name, hname, hp⟩ := Option.bind_eq_some_iff.mp hp.symm
    obtain ⟨v, -, hp⟩ := Option.bind_eq_some_iff.mp hp
    cases hp
    rw [List.filterMap_cons_some (f := fun e : Node × Node => d.textOf e.1) hname, List.map_cons,
      ih hmore.symm]

end Document

/-- A text names a key once at most among the entries at its top. -/
def NamedOnce (key s : String) : Prop := ∀ d, Document.ofText? s = some d → d.names.count key ≤ 1

theorem namedOnce_of_names {key : String} {names : List String}
    (h : (Document.ofText? s).map Document.names = some names) (hone : names.count key ≤ 1) :
    NamedOnce key s := by
  intro d hd
  rw [hd] at h
  cases h
  exact hone

/-- A plain line of a document that no other entry replaces has its word as the value. -/
theorem get?_of_lines (hs : s.toList = (line :: lines).flatMap PlainLine.text ++ x :: rest)
    (hx : isSpace x = false) {v : Value} (hv : readValue? s = some v) {l : PlainLine}
    (hl : l ∈ line :: lines) (hone : NamedOnce l.key s) :
    ∃ entries, v = .dict entries ∧ Dict.get? l.key entries = l.value? := by
  unfold readValue? at hv
  obtain ⟨d, hd, hv⟩ := Option.bind_eq_some_iff.mp hv
  obtain ⟨entries, hroot, hlines⟩ := Document.root_of_lines hs hx hd
  rw [hroot] at hv
  obtain ⟨pairs, rfl, hpairs⟩ := Document.value_mapping hv
  refine ⟨_, rfl, ?_⟩
  -- the entry of the line is one of the pairs
  have hentry : l.entry ∈ entries := hlines.subset (List.mem_map_of_mem hl)
  have hpair := List.mem_map_of_mem (f := d.pair? 127) hentry
  rw [hpairs] at hpair
  obtain ⟨p, hp, hsome⟩ := List.mem_map.mp hpair
  obtain ⟨name, hname, hsome⟩ := Option.bind_eq_some_iff.mp hsome.symm
  obtain ⟨w, hw, hsome⟩ := Option.bind_eq_some_iff.mp hsome
  rw [Document.value_word] at hw
  cases hname
  cases hsome
  have hcount := hone d hd
  unfold Document.names at hcount
  rw [hroot] at hcount
  dsimp only at hcount
  rw [Document.filterMap_of_pairs hpairs] at hcount
  rw [hw, get?_ofList_of_count hp hcount]

end ReplicaLoad.Yaml

-- Plain lines. A document that begins with lines of the form `name: word` has
-- their names and words as the first entries of its mapping, whatever comes
-- after them.
import ReplicaLoad.Proofs.TokenPrefixes

namespace ReplicaLoad.Yaml

/-! ## Plain words -/

def isPlainChar (c : Char) : Bool :=
  c.isAlphanum || c = '-' || c = '_' || c = '.' || c = '/'

/-- A word that is read as a plain scalar wherever it stands. -/
structure IsPlain (cs : List Char) : Prop where
  begins : ∃ x rest, cs = x :: rest ∧ x.isAlpha = true
  plain : ∀ x ∈ cs, isPlainChar x = true

theorem IsPlain.of_all {x : Char} {rest : List Char} (hx : x.isAlpha = true)
    (h : (x :: rest).all isPlainChar = true) : IsPlain (x :: rest) :=
  ⟨⟨x, rest, rfl, hx⟩, List.all_eq_true.mp h⟩

/-- A line that gives a name a word. A name is only known as one for 1024 characters. -/
structure PlainLine where
  name : List Char
  word : List Char
  plainName : IsPlain name
  plainWord : IsPlain word
  short : name.length ≤ 1024

def PlainLine.text (l : PlainLine) : List Char := l.name ++ ':' :: ' ' :: (l.word ++ ['\n'])

def PlainLine.tokens (l : PlainLine) : List Token :=
  [.key, .scalar .plain (String.ofList l.name), .value, .scalar .plain (String.ofList l.word)]

theorem ne_of_isAlpha {x c : Char} (hx : x.isAlpha = true) (hc : c.isAlpha = false) : x ≠ c := by
  rintro rfl
  rw [hx] at hc
  cases hc

theorem ne_of_isPlainChar {x c : Char} (hx : isPlainChar x = true) (hc : isPlainChar c = false) :
    x ≠ c := by
  rintro rfl
  rw [hx] at hc
  cases hc

theorem isPlainChar_of_isAlpha {x : Char} (h : x.isAlpha = true) : isPlainChar x = true := by
  simp [isPlainChar, Char.isAlphanum, h]

/-- A class of characters without the white space of the syntax. -/
theorem isSpace_of_ne {p : Char → Bool} {b : Bool} {x : Char} (hx : p x = b)
    (hp : ∀ n ∈ [0x20, 0x09, 0x0A, 0x0D, 0x85, 0x2028, 0x2029], p (Char.ofNat n) ≠ b) :
    isSpace x = false := by
  have hcode : ∀ n ∈ [0x20, 0x09, 0x0A, 0x0D, 0x85, 0x2028, 0x2029], x.toNat ≠ n := by
    rintro n hn rfl
    have hne := hp _ hn
    rw [Char.ofNat_toNat] at hne
    exact hne hx
  have hchar : ∀ n ∈ [0x20, 0x09, 0x0A, 0x0D, 0x85, 0x2028, 0x2029], x ≠ Char.ofNat n := by
    rintro n hn rfl
    exact hp n hn hx
  simp only [isSpace, isBlank, isBreak, Bool.or_eq_false_iff, decide_eq_false_iff_not]
  exact ⟨⟨hchar 0x20 (by decide), hchar 0x09 (by decide)⟩, ⟨⟨⟨hchar 0x0A (by decide),
    hchar 0x0D (by decide)⟩, hcode _ (by decide)⟩, hcode _ (by decide)⟩, hcode _ (by decide)⟩

theorem isSpace_of_isPlainChar {x : Char} (h : isPlainChar x = true) : isSpace x = false :=
  isSpace_of_ne h (by decide)

/-- A plain word belongs to a plain scalar as a whole. -/
theorem plainPiece_append {cs : List Char} (h : ∀ x ∈ cs, isPlainChar x = true)
    (rest : List Char) : plainPiece false (cs ++ rest) = (plainPiece false rest).map (cs ++ ·) := by
  induction cs with
  | nil => simp
  | cons x tail ih =>
    have hx := h x List.mem_cons_self
    have hcolon : x ≠ ':' := ne_of_isPlainChar hx (by decide)
    rw [List.cons_append, plainPiece, ih fun y hy => h y (List.mem_cons_of_mem _ hy)]
    simp [isSpace_of_isPlainChar hx, hcolon, Function.comp_def]

/-! ## Reading plain words -/

variable {cs rest : List Char} {c : Cursor} {x : Char}

/-- A cursor at a plain word is at no document marker and at no comment. -/
theorem IsPlain.starts (h : IsPlain cs) (hr : c.rest = cs ++ rest) :
    (c.atMarker || c.sees '#') = false := by
  obtain ⟨y, tail, rfl, hy⟩ := h.begins
  have hne : ∀ d : Char, d.isAlpha = false → y ≠ d := fun d => ne_of_isAlpha hy
  rw [List.cons_append] at hr
  simp [Cursor.atMarker, Cursor.sees, Cursor.peek, hr, (hne '-' (by decide)).symm,
    (hne '.' (by decide)).symm, hne '#' (by decide)]

theorem IsPlain.ne_nil (h : IsPlain cs) : cs ≠ [] := by
  obtain ⟨y, tail, rfl, -⟩ := h.begins
  exact List.cons_ne_nil y tail

theorem rest_advance (front : List Char) (hr : c.rest = front ++ rest) :
    (c.advance front.length).rest = rest := by
  simp [Cursor.advance, hr]

/-- A plain word is read up to a colon before a blank. -/
theorem readPlain_name (h : IsPlain cs) (hr : c.rest = cs ++ ':' :: ' ' :: rest)
    (indent fuel : Nat) :
    readPlain false indent (fuel + 1) [] {} c = some (cs, false, c.advance cs.length) := by
  have hpiece : plainPiece false c.rest = some cs := by
    rw [hr, plainPiece_append h.plain]
    simp [plainPiece, isSpace, isBlank, isBreak]
  have hspace : ((c.advance cs.length).peek.map isSpace).getD false = false := by
    simp [Cursor.peek, rest_advance cs hr, isSpace, isBlank, isBreak]
  unfold readPlain
  simp [h.starts hr, hpiece, hspace, h.ne_nil, Gap.text]

/-- The white space between two lines is the line break. -/
theorem readGap_newline (tabColumn : Option Nat) (hr : c.rest = '\n' :: x :: rest)
    (hx : isSpace x = false) :
    readGap tabColumn (c.rest.length + 1) {} c =
      some ({ broken := true, leading := c.breakText }, c.nextLine) := by
  simp only [isSpace, Bool.or_eq_false_iff] at hx
  have hpeek : c.peek = some '\n' := by rw [Cursor.peek, hr]; rfl
  have hnext : c.nextLine.peek = some x := by simp [Cursor.peek, Cursor.nextLine, hr]
  rw [hr, List.length_cons, readGap, hpeek, List.length_cons, readGap, hnext]
  have hblank : isBlank '\n' = false := by decide
  have hbreak : isBreak '\n' = true := by decide
  simp [hblank, hbreak, hx.1, hx.2]

/-- A plain word is read up to the end of its line, when the next line is not indented. -/
theorem readPlain_word (h : IsPlain cs) (hr : c.rest = cs ++ '\n' :: x :: rest)
    (hx : isSpace x = false) {indent : Nat} (hi : 0 < indent) (fuel : Nat) :
    readPlain false indent (fuel + 1) [] {} c =
      some (cs, true, (c.advance cs.length).nextLine) := by
  have hpiece : plainPiece false c.rest = some cs := by
    rw [hr, plainPiece_append h.plain]
    simp [plainPiece, isSpace, isBlank, isBreak]
  have hspace : ((c.advance cs.length).peek.map isSpace).getD false = true := by
    simp [Cursor.peek, rest_advance cs hr, isSpace, isBlank, isBreak]
  have hgap := readGap_newline (some indent) (rest_advance cs hr) hx
  have hcolumn : (c.advance cs.length).nextLine.column < indent := hi
  unfold readPlain
  simp [h.starts hr, hpiece, hspace, hgap, hcolumn, h.ne_nil, Gap.text]

namespace Lexer

variable {l l₁ : Lexer}

/-! ## Steps -/

/-- There is nothing to pass in front of a character. -/
theorem passSpace_of_cons (fuel : Nat) (hr : l.cursor.rest = x :: rest) (hs : isSpace x = false)
    (hx : x ≠ '#') : l.passSpace (fuel + 1) = l := by
  simp only [isSpace, Bool.or_eq_false_iff] at hs
  obtain ⟨hblank, hbreak⟩ := hs
  simp only [isBlank, Bool.or_eq_false_iff, decide_eq_false_iff_not] at hblank
  have hpass : (l.cursor.passWhile fun x => x = ' ' || (x = '\t' && (l.inFlow || !l.keyAllowed))) =
      l.cursor := by
    simp [Cursor.passWhile, hr, hblank.1, hblank.2, Cursor.advance]
    rw [← hr]
  have hpeek : l.cursor.peek = some x := by rw [Cursor.peek, hr]; rfl
  unfold passSpace
  rw [hpass]
  simp [Cursor.sees, hpeek, hx, hbreak, moveTo]

theorem closeBlocks_of_le {column : Int} (h : l.indent ≤ column) : l.closeBlocks column = l := by
  unfold closeBlocks
  split
  · rfl
  · cases l.outer with
    | nil => rfl
    | cons next outer =>
      unfold closeBlocksAfter
      rw [if_neg (by omega)]

/-- A letter begins a plain scalar. -/
theorem next_of_isAlpha (h₁ : (l.passSpace (l.cursor.rest.length + 1)).dropStale = some l₁)
    (hi : l₁.indent ≤ l₁.cursor.column) (hr : l₁.cursor.rest = x :: rest)
    (hx : x.isAlpha = true) : l.next = l₁.plainScalar := by
  have hne : ∀ c : Char, c.isAlpha = false → x ≠ c := fun c => ne_of_isAlpha hx
  have hpeek : l₁.cursor.peek = some x := by rw [Cursor.peek, hr]; rfl
  have hmarker : l₁.cursor.atMarker = false := by
    simp [Cursor.atMarker, hr, (hne '-' (by decide)).symm, (hne '.' (by decide)).symm]
  have hbegins : beginsPlain l₁.inFlow x (l₁.cursor.peekAt 1) = true := by
    simp [beginsPlain, hne, isSpace_of_isPlainChar (isPlainChar_of_isAlpha hx)]
  unfold next
  rw [h₁]
  simp only [Option.bind_eq_bind, Option.bind_some, closeBlocks_of_le hi, hpeek, hmarker, hbegins]
  simp [hne]

/-- A colon before a blank ends a key. -/
theorem next_of_colon (h₁ : (l.passSpace (l.cursor.rest.length + 1)).dropStale = some l₁)
    (hi : l₁.indent ≤ l₁.cursor.column) (hr : l₁.cursor.rest = ':' :: ' ' :: rest) :
    l.next = l₁.valueMark := by
  have hpeek : l₁.cursor.peek = some ':' := by rw [Cursor.peek, hr]; rfl
  have hspace : l₁.cursor.spaceAt 1 = true := by
    simp [Cursor.spaceAt, Cursor.peekAt, hr, isSpace, isBlank]
  have hmarker : l₁.cursor.atMarker = false := by
    simp [Cursor.atMarker, hr]
  unfold next
  rw [h₁]
  simp only [Option.bind_eq_bind, Option.bind_some, closeBlocks_of_le hi, hpeek, hmarker, hspace]
  simp

/-! ## One line -/

/-- A lexer at the start of a line where a key of the outermost block may begin. -/
structure AtLine (l : Lexer) (text : List Char) : Prop where
  rest : l.cursor.rest = text
  column : l.cursor.column = 0
  indent : l.indent ≤ 0
  keyAllowed : l.keyAllowed = true
  candidates : l.candidates = [none]

theorem dropStale_of_none (h : l.candidates = [none]) : l.dropStale = some l := by
  cases l
  cases h
  rfl

theorem dropStale_of_fresh {k : Candidate} (hc : l.candidates = [some k])
    (hline : ¬ k.line < l.cursor.line) (hindex : ¬ k.index + 1024 < l.cursor.index) :
    l.dropStale = some l := by
  cases l
  cases hc
  simp [dropStale, hline, hindex]

/-- The lexer behind a name, which is remembered as a candidate. -/
def passName (l : Lexer) (name : List Char) : Lexer :=
  { l with
    cursor := l.cursor.advance name.length
    tokens := l.tokens.push (.scalar .plain (String.ofList name))
    keyAllowed := false
    candidates := [some ⟨l.tokens.size, l.cursor.line, 0, l.cursor.index, decide (l.indent = 0)⟩] }

/-- The name of a line is read. -/
theorem AtLine.next_name {line : PlainLine} (h : l.AtLine (line.name ++ ':' :: ' ' :: rest)) :
    l.next = some (l.passName line.name) := by
  obtain ⟨y, tail, hname, hy⟩ := line.plainName.begins
  have hspace := isSpace_of_isPlainChar (isPlainChar_of_isAlpha hy)
  have hr : l.cursor.rest = y :: (tail ++ ':' :: ' ' :: rest) := by rw [h.rest, hname]; rfl
  have hstart : (l.passSpace (l.cursor.rest.length + 1)).dropStale = some l := by
    rw [passSpace_of_cons _ hr hspace (ne_of_isAlpha hy (by decide))]
    exact dropStale_of_none h.candidates
  have hindent : l.indent ≤ l.cursor.column := by
    rw [h.column]
    exact h.indent
  rw [next_of_isAlpha hstart hindent hr hy]
  have hread := readPlain_name (line.plainName) h.rest (l.indent + 1).toNat l.cursor.rest.length
  unfold plainScalar addCandidate dropCandidate
  simp [h.keyAllowed, h.candidates, hread, inFlow, h.column, allowKey, emit, moveTo, passName]

theorem insertIdx_length_append {α : Type} (as bs : List α) (a : α) :
    (as ++ bs).insertIdx as.length a = as ++ a :: bs := by
  induction as with
  | nil => rfl
  | cons b tail ih => rw [List.cons_append, List.length_cons, List.insertIdx_succ_cons, ih]; rfl

/-- The token of the outermost block, if it has not been opened yet. -/
def opening (l : Lexer) : List Token := if l.indent < 0 then [.blockMappingStart] else []

/-- A colon makes a key of the scalar in front of it. -/
theorem next_colon {k : Candidate} (before : List Token) (t : Token)
    (hr : l.cursor.rest = ':' :: ' ' :: rest) (hi : l.indent ≤ 0)
    (hc : l.candidates = [some k]) (hk : k.column = 0) (hline : k.line = l.cursor.line)
    (hfresh : l.cursor.index ≤ k.index + 1024) (ht : l.tokens.toList = before ++ [t])
    (hp : k.position = before.length) :
    ∃ l₁, l.next = some l₁ ∧ l₁.cursor = l.cursor.advance 1 ∧ l₁.keyAllowed = false ∧
      l₁.candidates = [none] ∧ (l₁.indent = if l.indent < 0 then 0 else l.indent) ∧
      l₁.tokens.toList = before ++ l.opening ++ [.key, t, .value] := by
  have hstart : (l.passSpace (l.cursor.rest.length + 1)).dropStale = some l := by
    rw [passSpace_of_cons _ hr (by decide) (by decide)]
    exact dropStale_of_fresh hc (by omega) (by omega)
  have hindent : l.indent ≤ l.cursor.column := by omega
  rw [next_of_colon hstart hindent hr]
  unfold valueMark
  rw [hc]
  have hkey : (l.tokens.insertIdxIfInBounds k.position .key).toList = before ++ [.key, t] := by
    rw [toList_insertIdxIfInBounds, ht, hp, insertIdx_length_append]
  by_cases hneg : l.indent < 0
  · have hblock : ((l.tokens.insertIdxIfInBounds k.position .key).insertIdxIfInBounds k.position
        .blockMappingStart).toList = before ++ [.blockMappingStart, .key, t] := by
      rw [toList_insertIdxIfInBounds, hkey, hp, insertIdx_length_append]
    refine ⟨_, rfl, ?_⟩
    simp [openBlock, opening, inFlow, hk, hneg, allowKey, emit, pass, moveTo, hblock]
  · refine ⟨_, rfl, ?_⟩
    simp [openBlock, opening, inFlow, hk, hneg, allowKey, emit, pass, moveTo, hkey]

/-- The lexer on the line after a word. -/
def passWord (l : Lexer) (word : List Char) : Lexer :=
  { l with
    cursor := ((l.cursor.advance 1).advance word.length).nextLine
    tokens := l.tokens.push (.scalar .plain (String.ofList word))
    keyAllowed := true }

/-- The word of a line is read, up to the start of the next line. -/
theorem next_word {word : List Char} (hw : IsPlain word)
    (hr : l.cursor.rest = ' ' :: (word ++ '\n' :: x :: rest)) (hx : isSpace x = false)
    (hi : l.indent = 0) (hk : l.keyAllowed = false) (hc : l.candidates = [none]) :
    l.next = some (l.passWord word) := by
  obtain ⟨y, tail, hword, hy⟩ := hw.begins
  have hne : ∀ d : Char, d.isAlpha = false → y ≠ d := fun d => ne_of_isAlpha hy
  have hr₁ : (l.cursor.advance 1).rest = word ++ '\n' :: x :: rest := by
    simp [Cursor.advance, hr]
  have hr₂ : (l.cursor.advance 1).rest = y :: (tail ++ '\n' :: x :: rest) := by
    rw [hr₁, hword]
    rfl
  have hpass : l.passSpace (l.cursor.rest.length + 1) = l.moveTo (l.cursor.advance 1) := by
    have hone : (l.cursor.passWhile fun c => c = ' ' || (c = '\t' && (l.inFlow || !l.keyAllowed))) =
        l.cursor.advance 1 := by
      simp [Cursor.passWhile, hr, hword, hne]
    have hpeek : (l.cursor.advance 1).peek = some y := by rw [Cursor.peek, hr₂]; rfl
    have hbreak : isBreak y = false := by
      have hs := isSpace_of_isPlainChar (isPlainChar_of_isAlpha hy)
      simp only [isSpace, Bool.or_eq_false_iff] at hs
      exact hs.2
    unfold passSpace
    rw [hone]
    simp [Cursor.sees, hpeek, hne, hbreak]
  have hstart : (l.passSpace (l.cursor.rest.length + 1)).dropStale =
      some (l.moveTo (l.cursor.advance 1)) := by
    rw [hpass]
    exact dropStale_of_none hc
  have hindent : 0 < (l.indent + 1).toNat := by omega
  have hread := readPlain_word hw hr₁ hx hindent (l.cursor.advance 1).rest.length
  rw [next_of_isAlpha hstart (by simp [moveTo, hi]) hr₂ hy]
  unfold plainScalar addCandidate
  simp [hk, hc, hread, inFlow, allowKey, emit, moveTo, passWord]

/-- What is read from a lexer is read from a later one. -/
def Continues (l l₁ : Lexer) : Prop :=
  ∀ fuel tokens, l.readAll fuel = some tokens → ∃ fuel', l₁.readAll fuel' = some tokens

theorem Continues.refl (l : Lexer) : l.Continues l := fun fuel _ h => ⟨fuel, h⟩

theorem Continues.trans {l₂ : Lexer} (h : l.Continues l₁) (h' : l₁.Continues l₂) :
    l.Continues l₂ := by
  intro fuel tokens hall
  obtain ⟨fuel₁, hall₁⟩ := h fuel tokens hall
  exact h' fuel₁ tokens hall₁

/-- A step of a lexer that has not come to the end of the text. -/
theorem continues_of_next (h : l.next = some l₁)
    (hend : l₁.tokens.toList.getLast? ≠ some .streamEnd) : l.Continues l₁ := by
  intro fuel tokens hall
  cases fuel with
  | zero => cases hall
  | succ fuel =>
    unfold readAll at hall
    rw [h, Option.bind_eq_bind, Option.bind_some, ← Array.getLast?_toList, if_neg hend] at hall
    exact ⟨fuel, hall⟩

/-- A plain line is read as its tokens. -/
theorem AtLine.line {line : PlainLine} (h : l.AtLine (line.text ++ x :: rest))
    (hx : isSpace x = false) :
    ∃ l₁ : Lexer, l.Continues l₁ ∧ l₁.AtLine (x :: rest) ∧ l₁.indent = 0 ∧
      l₁.tokens.toList = l.tokens.toList ++ l.opening ++ line.tokens := by
  have htext : line.text ++ x :: rest =
      line.name ++ ':' :: ' ' :: (line.word ++ '\n' :: x :: rest) := by simp [PlainLine.text]
  rw [htext] at h
  have hname := h.next_name
  have hr : (l.passName line.name).cursor.rest =
      ':' :: ' ' :: (line.word ++ '\n' :: x :: rest) := rest_advance line.name h.rest
  have hfresh : (l.passName line.name).cursor.index ≤ l.cursor.index + 1024 :=
    Nat.add_le_add_left line.short _
  obtain ⟨l₂, hcolon, hcursor, hkey, hcandidates, hindent, htokens⟩ :=
    next_colon l.tokens.toList (.scalar .plain (String.ofList line.name)) hr h.indent rfl rfl rfl
      hfresh Array.toList_push (by simp)
  have hzero : l₂.indent = 0 := by
    have hle : (l.passName line.name).indent ≤ 0 := h.indent
    rw [hindent]
    split <;> omega
  have hr₂ : l₂.cursor.rest = ' ' :: (line.word ++ '\n' :: x :: rest) := by
    rw [hcursor]
    exact rest_advance [':'] hr
  have hr₃ : ((l₂.cursor.advance 1).advance line.word.length).rest = '\n' :: x :: rest :=
    rest_advance line.word (rest_advance [' '] hr₂)
  have hword := next_word line.plainWord hr₂ hx hzero hkey hcandidates
  refine ⟨l₂.passWord line.word, ?_, ⟨?_, rfl, Int.le_of_eq hzero, rfl, hcandidates⟩, hzero, ?_⟩
  · have h₁ := continues_of_next hname (by simp [passName])
    have h₂ := continues_of_next hcolon (by simp [htokens])
    exact (h₁.trans h₂).trans (continues_of_next hword (by simp [passWord]))
  · simp [passWord, Cursor.nextLine, hr₃]
  · have hopening : (l.passName line.name).opening = l.opening := rfl
    simp [passWord, htokens, hopening, PlainLine.tokens]

/-! ## Several lines -/

/-- A text of plain lines before a character begins with a letter or with that character. -/
theorem exists_cons_of_lines (lines : List PlainLine) (rest : List Char) (hx : isSpace x = false) :
    ∃ y more, lines.flatMap PlainLine.text ++ x :: rest = y :: more ∧ isSpace y = false := by
  cases lines with
  | nil => exact ⟨x, rest, rfl, hx⟩
  | cons line lines =>
    obtain ⟨y, tail, hname, hy⟩ := line.plainName.begins
    refine ⟨y, tail ++ ':' :: ' ' :: (line.word ++ ['\n']) ++
      lines.flatMap PlainLine.text ++ x :: rest, ?_,
      isSpace_of_isPlainChar (isPlainChar_of_isAlpha hy)⟩
    simp [PlainLine.text, hname]

/-- Plain lines inside of a block are read as their tokens. -/
theorem AtLine.lines {lines : List PlainLine}
    (h : l.AtLine (lines.flatMap PlainLine.text ++ x :: rest)) (hx : isSpace x = false)
    (hi : l.indent = 0) :
    ∃ l₁ : Lexer, l.Continues l₁ ∧ l₁.AtLine (x :: rest) ∧
      l₁.tokens.toList = l.tokens.toList ++ lines.flatMap PlainLine.tokens := by
  induction lines generalizing l with
  | nil => exact ⟨l, .refl l, h, by simp⟩
  | cons line lines ih =>
    obtain ⟨y, more, hmore, hy⟩ := exists_cons_of_lines lines rest hx
    rw [List.flatMap_cons, List.append_assoc, hmore] at h
    obtain ⟨l₁, hcont, hat, hindent, htokens⟩ := h.line hy
    rw [← hmore] at hat
    obtain ⟨l₂, hcont', hat', htokens'⟩ := ih hat hindent
    refine ⟨l₂, hcont.trans hcont', hat', ?_⟩
    rw [htokens', htokens, opening, if_neg (by omega)]
    simp

end Lexer

/-- A text that does not begin with a byte order mark is read as it stands. -/
theorem tokens?_of_ne {s : String} (hs : s.toList = x :: rest) (hx : x ≠ '\ufeff') :
    tokens? s = if s.toList.all isAllowed then
      Lexer.readAll (s.toList.length + 2) { cursor := { rest := s.toList } } else none := by
  unfold tokens?
  rw [hs]
  split
  · rename_i heq
    exact absurd (List.cons.inj heq).1 hx
  · rfl

/-- The tokens of a text that begins with plain lines begin with theirs. -/
theorem tokens?_of_lines {line : PlainLine} {lines : List PlainLine} {s : String}
    (hs : s.toList = (line :: lines).flatMap PlainLine.text ++ x :: rest) (hx : isSpace x = false)
    {tokens : List Token} (ht : tokens? s = some tokens) :
    .blockMappingStart :: (line :: lines).flatMap PlainLine.tokens <+: tokens := by
  obtain ⟨y, more, hmore, hy⟩ := Lexer.exists_cons_of_lines lines rest hx
  rw [List.flatMap_cons, List.append_assoc, hmore] at hs
  obtain ⟨z, tail, hname, hz⟩ := line.plainName.begins
  have hfirst : s.toList = z :: (tail ++ ':' :: ' ' :: (line.word ++ '\n' :: y :: more)) := by
    simp [hs, PlainLine.text, hname]
  rw [tokens?_of_ne hfirst (ne_of_isAlpha hz (by decide))] at ht
  split at ht
  · have hat : Lexer.AtLine { cursor := { rest := s.toList } } (line.text ++ y :: more) :=
      ⟨hs, rfl, by simp, rfl, rfl⟩
    obtain ⟨l₁, hcont, hat₁, hindent, htokens⟩ := hat.line hy
    rw [← hmore] at hat₁
    obtain ⟨l₂, hcont', hat₂, htokens'⟩ := hat₁.lines hx hindent
    obtain ⟨fuel, hall⟩ := (hcont.trans hcont') _ tokens ht
    -- nothing behind the lines can reach back to their tokens
    refine Lexer.Keeps.readAll ⟨?_, fun k hk => ?_⟩ hall
    · rw [htokens', htokens]
      simp [Lexer.opening]
    · rw [hat₂.candidates] at hk
      simp at hk
  · cases ht

end ReplicaLoad.Yaml

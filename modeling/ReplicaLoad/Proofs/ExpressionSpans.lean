-- Expression tags as spans. A template is text with expression tags in it.
-- Dropping its spans leaves exactly the text when every tag is made of whole
-- spans, one right behind the other; and then its identity is that of the text
-- alone. A tag with two closing braces in it, as those of a dictionary in a
-- dictionary, can be longer than its first span: what is left of it stays in
-- the template.
import ReplicaLoad.Proofs.TemplateIdentity

namespace ReplicaLoad.Template

def openBraces : List Char := ['\x7b', '\x7b']

def closeBraces : List Char := ['\x7d', '\x7d']

/-- The tag that holds a text. -/
def tagOf (inside : List Char) : List Char := openBraces ++ inside ++ closeBraces

/-! ## The end of a span -/

theorem closeAt?_cons (c : Char) (cs : List Char) :
    closeAt? (c :: cs) =
      if c = '\x7d' ∧ cs.head? = some '\x7d' then some 2 else (closeAt? cs).map (· + 1) := by
  conv_lhs => unfold closeAt?
  split
  · rename_i heq
    cases heq
    simp
  · rename_i hne heq
    cases heq
    rw [if_neg]
    rintro ⟨rfl, hcs⟩
    obtain ⟨rest, rfl⟩ := List.head?_eq_some_iff.mp hcs
    exact hne _ rfl rfl
  · rename_i heq
    cases heq

theorem spanLength?_cons (c : Char) (cs : List Char) :
    spanLength? (c :: cs) =
      if c = '\x7b' ∧ cs.head? = some '\x7b' then (closeAt? cs.tail).map (· + 2) else none := by
  unfold spanLength?
  split
  · rename_i heq
    cases heq
    simp
  · rename_i hne
    rw [if_neg]
    rintro ⟨rfl, hcs⟩
    obtain ⟨rest, rfl⟩ := List.head?_eq_some_iff.mp hcs
    exact hne _ rfl

/-- The first closing braces of a text stay the first ones, whatever follows it. -/
theorem closeAt?_append {cs : List Char} {n : Nat} (h : closeAt? cs = some n) (more : List Char) :
    closeAt? (cs ++ more) = some n := by
  induction cs generalizing n with
  | nil => cases h
  | cons c rest ih =>
    rw [closeAt?_cons] at h
    rw [List.cons_append, closeAt?_cons]
    split at h
    · rename_i hc
      rw [if_pos ⟨hc.1, by simp [hc.2]⟩]
      exact h
    · rename_i hc
      obtain ⟨m, hm, rfl⟩ := Option.map_eq_some_iff.mp h
      rw [ih hm, if_neg]
      · rfl
      · rintro ⟨hc', hhead⟩
        refine hc ⟨hc', ?_⟩
        -- the rest is not empty, since there are closing braces in it
        cases rest with
        | nil => cases hm
        | cons => exact hhead

theorem isSome_closeAt?_append (cs : List Char) :
    (closeAt? (cs ++ closeBraces)).isSome = true := by
  induction cs with
  | nil => rfl
  | cons c rest ih =>
    rw [List.cons_append, closeAt?_cons]
    split
    · rfl
    · rwa [Option.isSome_map]

/-- The text in front of closing braces has none before them, also with the first of them. -/
def Unclosed (x : List Char) : Prop := ¬ closeBraces <:+: x ++ ['\x7d']

theorem closeAt?_of_unclosed {x : List Char} (h : Unclosed x) (more : List Char) :
    closeAt? (x ++ closeBraces ++ more) = some (x.length + 2) := by
  induction x with
  | nil => rfl
  | cons c rest ih =>
    have hrest : Unclosed rest := fun hi => h (List.infix_cons hi)
    rw [List.cons_append, List.cons_append, closeAt?_cons, if_neg, ih hrest]
    · rfl
    · rintro ⟨rfl, hhead⟩
      refine h (List.IsPrefix.isInfix ?_)
      cases rest with
      | nil => exact List.prefix_rfl
      | cons d rest =>
        cases hhead
        exact ⟨rest ++ ['\x7d'], rfl⟩

theorem exists_of_closeAt? {cs : List Char} {n : Nat} (h : closeAt? cs = some n) :
    ∃ x more, cs = x ++ closeBraces ++ more ∧ n = x.length + 2 ∧ Unclosed x := by
  induction cs generalizing n with
  | nil => cases h
  | cons c rest ih =>
    rw [closeAt?_cons] at h
    split at h
    · rename_i hc
      cases h
      obtain ⟨rfl, hhead⟩ := hc
      obtain ⟨more, rfl⟩ := List.head?_eq_some_iff.mp hhead
      refine ⟨[], more, rfl, rfl, fun hi => ?_⟩
      have := hi.length_le
      simp [closeBraces] at this
    · rename_i hc
      obtain ⟨m, hm, rfl⟩ := Option.map_eq_some_iff.mp h
      obtain ⟨x, more, rfl, rfl, hx⟩ := ih hm
      refine ⟨c :: x, more, rfl, rfl, fun hi => ?_⟩
      rw [List.cons_append] at hi
      rcases List.infix_cons_iff.mp hi with hp | hi
      · -- the closing braces would stand at the start
        obtain ⟨tail, ht⟩ := hp
        refine hc ⟨(List.cons.inj ht).1.symm, ?_⟩
        have hx' : x ++ ['\x7d'] = '\x7d' :: tail := (List.cons.inj ht).2.symm
        cases x with
        | nil => rfl
        | cons d x =>
          cases hx'
          rfl
      · exact hx hi

/-! ## Spans in front of a text -/

theorem dropSpansFrom_length_append (skipped more : List Char) :
    dropSpansFrom skipped.length (skipped ++ more) = dropSpansFrom 0 more := by
  induction skipped with
  | nil => rfl
  | cons c rest ih => exact ih

theorem spanLength?_tagOf {x : List Char} (h : Unclosed x) (more : List Char) :
    spanLength? (tagOf x ++ more) = some (tagOf x).length := by
  have hc := closeAt?_of_unclosed h more
  unfold tagOf openBraces at *
  simp only [List.cons_append, List.nil_append, spanLength?_cons, List.head?_cons, and_self,
    if_true, List.tail_cons, hc, Option.map_some, List.length_cons, List.length_append]
  rfl

theorem exists_of_spanLength? {cs : List Char} {n : Nat} (h : spanLength? cs = some n) :
    ∃ x more, cs = tagOf x ++ more ∧ n = (tagOf x).length ∧ Unclosed x := by
  unfold spanLength? at h
  split at h
  · obtain ⟨m, hm, rfl⟩ := Option.map_eq_some_iff.mp h
    obtain ⟨x, more, rfl, rfl, hx⟩ := exists_of_closeAt? hm
    exact ⟨x, more, by simp [tagOf, openBraces], by simp [tagOf, openBraces, closeBraces], hx⟩
  · cases h

/-- A span at the start of a text is dropped. -/
theorem dropSpansFrom_tagOf {x : List Char} (h : Unclosed x) (more : List Char) :
    dropSpansFrom 0 (tagOf x ++ more) = dropSpansFrom 0 more := by
  have hlength := spanLength?_tagOf h more
  change dropSpansFrom 0 ('\x7b' :: ('\x7b' :: x ++ closeBraces ++ more)) = _
  rw [dropSpansFrom]
  change spanLength? ('\x7b' :: ('\x7b' :: x ++ closeBraces ++ more)) = _ at hlength
  rw [hlength]
  exact dropSpansFrom_length_append ('\x7b' :: x ++ closeBraces) more

/-- A text that spans make up, one right behind the other. -/
inductive Gapless : List Char → Prop
  | nil : Gapless []
  | span {x rest : List Char} (h : Unclosed x) (hrest : Gapless rest) : Gapless (tagOf x ++ rest)

/-- Nothing is left of a text exactly when spans make it up. -/
theorem dropSpansFrom_eq_nil_iff {cs : List Char} : dropSpansFrom 0 cs = [] ↔ Gapless cs := by
  constructor
  · intro h
    induction hn : cs.length using Nat.strongRecOn generalizing cs with
    | ind n ih =>
      cases cs with
      | nil => exact .nil
      | cons c rest =>
        cases hs : spanLength? (c :: rest) with
        | none =>
          rw [dropSpansFrom, hs] at h
          cases h
        | some length =>
          obtain ⟨x, more, hcs, -, hx⟩ := exists_of_spanLength? hs
          rw [hcs] at h hn ⊢
          rw [dropSpansFrom_tagOf hx] at h
          refine .span hx (ih more.length ?_ h rfl)
          rw [← hn]
          simp [tagOf, openBraces]
          omega
  · intro h
    induction h with
    | nil => rfl
    | span hx _ ih => rw [dropSpansFrom_tagOf hx, ih]

theorem gapless_of_unclosed {x : List Char} (h : Unclosed x) : Gapless (tagOf x) := by
  simpa using Gapless.span h .nil

/-! ## Texts that stand for themselves -/

/-- Nothing that follows a text changes which of its spans are dropped: each of its openings has
closing braces behind it, and no opening brace is left over at its end. -/
structure Settled (cs : List Char) : Prop where
  closes : ∀ rest, openBraces ++ rest <:+ cs → (closeAt? rest).isSome = true
  ends : cs.getLast? ≠ some '\x7b'

theorem Settled.tail {c : Char} {cs : List Char} (h : Settled (c :: cs)) : Settled cs where
  closes := fun rest hr => h.closes rest (hr.trans (List.suffix_cons c cs))
  ends := by
    cases cs with
    | nil => simp
    | cons d rest => exact fun he => h.ends (by rwa [List.getLast?_cons_cons])

theorem Settled.spanLength? {c : Char} {cs : List Char} (h : Settled (c :: cs)) (more : List Char) :
    Template.spanLength? (c :: (cs ++ more)) = Template.spanLength? (c :: cs) := by
  rw [spanLength?_cons, spanLength?_cons]
  cases cs with
  | nil =>
    have hc : c ≠ '\x7b' := by
      rintro rfl
      exact h.ends rfl
    simp [hc]
  | cons d rest =>
    refine if_ctx_congr (by simp) (fun ho => ?_) fun _ => rfl
    obtain ⟨rfl, hd⟩ := ho
    obtain rfl : d = '\x7b' := Option.some.inj hd
    obtain ⟨n, hn⟩ := Option.isSome_iff_exists.mp (h.closes rest List.suffix_rfl)
    rw [List.cons_append, List.tail_cons, List.tail_cons, hn, closeAt?_append hn]

theorem spanLength?_le {cs : List Char} {n : Nat} (h : spanLength? cs = some n) : n ≤ cs.length := by
  obtain ⟨x, more, rfl, rfl, -⟩ := exists_of_spanLength? h
  simp

/-- The spans of a settled text are dropped apart from those of the text behind it. -/
theorem Settled.dropSpansFrom {cs : List Char} (h : Settled cs) {skip : Nat}
    (hskip : skip ≤ cs.length) (more : List Char) :
    dropSpansFrom skip (cs ++ more) = dropSpansFrom skip cs ++ dropSpansFrom 0 more := by
  induction cs generalizing skip with
  | nil =>
    obtain rfl : skip = 0 := by simpa using hskip
    rfl
  | cons c rest ih =>
    cases skip with
    | succ skip => exact ih h.tail (by simpa using hskip)
    | zero =>
      rw [List.cons_append, Template.dropSpansFrom, Template.dropSpansFrom, h.spanLength?]
      cases hs : Template.spanLength? (c :: rest) with
      | none =>
        dsimp only
        rw [ih h.tail (Nat.zero_le _), List.cons_append]
      | some n =>
        have := spanLength?_le hs
        exact ih h.tail (by simp at this; omega)

/-- Nowhere in a text do closing braces follow opening ones. -/
def Spanless (cs : List Char) : Prop :=
  ∀ before inside after, cs ≠ before ++ tagOf inside ++ after

theorem Spanless.tail {c : Char} {cs : List Char} (h : Spanless (c :: cs)) : Spanless cs := by
  rintro before inside after rfl
  exact h (c :: before) inside after rfl

/-- Where there is no span, none is dropped. -/
theorem Spanless.dropSpansFrom {cs : List Char} (h : Spanless cs) : dropSpansFrom 0 cs = cs := by
  induction cs with
  | nil => rfl
  | cons c rest ih =>
    have hnone : spanLength? (c :: rest) = none := by
      rw [Option.eq_none_iff_forall_ne_some]
      intro n hn
      obtain ⟨x, more, hcs, -, -⟩ := exists_of_spanLength? hn
      exact h [] x more hcs
    rw [Template.dropSpansFrom, hnone]
    dsimp only
    rw [ih h.tail]

/-- A text that begins no span. -/
structure Literal (cs : List Char) : Prop where
  opens : ¬ openBraces <:+: cs
  ends : cs.getLast? ≠ some '\x7b'

theorem Literal.settled {cs : List Char} (h : Literal cs) : Settled cs where
  closes := fun rest hr => by
    refine absurd ?_ h.opens
    exact (List.prefix_append openBraces rest).isInfix.trans hr.isInfix
  ends := h.ends

theorem Literal.spanless {cs : List Char} (h : Literal cs) : Spanless cs := by
  rintro before inside after rfl
  refine h.opens (List.IsInfix.trans ⟨before, inside ++ closeBraces, ?_⟩
    (List.prefix_append _ after).isInfix)
  simp [tagOf]

theorem Literal.dropSpansFrom {cs : List Char} (h : Literal cs) :
    dropSpansFrom 0 cs = cs := h.spanless.dropSpansFrom

/-- A tag is settled, whatever it holds: its own end closes whatever is open in it. -/
theorem settled_tagOf (inside : List Char) : Settled (tagOf inside) where
  closes := by
    intro rest hr
    -- the closing braces at the end of the tag are not those that open the rest
    have hc : closeBraces <:+ openBraces ++ rest :=
      List.suffix_of_suffix_length_le (List.suffix_append _ _) hr (by simp [openBraces, closeBraces])
    obtain ⟨x, rfl⟩ : closeBraces <:+ rest := by
      simpa [openBraces, closeBraces, List.suffix_cons_iff] using hc
    exact isSome_closeAt?_append x
  ends := by simp [tagOf, closeBraces]

/-- Settled texts lose their spans each for itself. -/
theorem dropSpansFrom_flatMap {α : Type} {f : α → List Char} {xs : List α}
    (h : ∀ x ∈ xs, Settled (f x)) :
    dropSpansFrom 0 (xs.flatMap f) = xs.flatMap fun x => dropSpansFrom 0 (f x) := by
  induction xs with
  | nil => rfl
  | cons x rest ih =>
    obtain ⟨hx, hrest⟩ := List.forall_mem_cons.mp h
    rw [List.flatMap_cons, List.flatMap_cons, hx.dropSpansFrom (Nat.zero_le _), ih hrest]

/-! ## Templates with expression tags -/

theorem sublist_flatMap_append {α β : Type} (f g : α → List β) (xs : List α) :
    (xs.flatMap f).Sublist (xs.flatMap fun x => f x ++ g x) := by
  induction xs with
  | nil => exact .refl _
  | cons x rest ih => exact (List.sublist_append_left _ _).append ih

theorem flatMap_append_eq_iff {α β : Type} (f g : α → List β) (xs : List α) :
    xs.flatMap (fun x => f x ++ g x) = xs.flatMap f ↔ ∀ x ∈ xs, g x = [] := by
  induction xs with
  | nil => simp
  | cons x rest ih =>
    simp only [List.flatMap_cons, List.append_assoc, List.append_cancel_left_eq,
      List.forall_mem_cons]
    constructor
    · intro h
      have hle := (sublist_flatMap_append f g rest).length_le
      have hlength := congrArg List.length h
      rw [List.length_append] at hlength
      have hx : g x = [] := List.eq_nil_of_length_eq_zero (by omega)
      rw [hx] at h
      exact ⟨hx, ih.mp h⟩
    · rintro ⟨hx, hrest⟩
      rw [hx, List.nil_append, ih.mpr hrest]

/-- A tag that the template language reads as the print of one expression. -/
structure PrintTag where
  inside : List Char
  reads : ∃ e, parse (String.ofList (tagOf inside)) = .ok [.print e]

def PrintTag.text (t : PrintTag) : List Char := tagOf t.inside

inductive Segment where
  | text (cs : List Char) (h : Literal cs)
  | tag (t : PrintTag)

namespace Segment

def chars : Segment → List Char
  | text cs _ => cs
  | tag t => t.text

/-- What a segment is apart from expressions. -/
def literal : Segment → List Char
  | text cs _ => cs
  | tag _ => []

/-- What dropping the spans leaves of a tag. -/
def leftover : Segment → List Char
  | text _ _ => []
  | tag t => dropSpansFrom 0 t.text

theorem settled (s : Segment) : Settled s.chars := by
  cases s with
  | text cs h => exact h.settled
  | tag t => exact settled_tagOf t.inside

theorem settled_literal (s : Segment) : Settled s.literal := by
  cases s with
  | text cs h => exact h.settled
  | tag t =>
    have hnil : (tag t).literal = [] := rfl
    rw [hnil]
    exact ⟨fun rest hr => by simp [openBraces] at hr, by simp⟩

theorem dropSpansFrom_chars (s : Segment) :
    dropSpansFrom 0 s.chars = s.literal ++ s.leftover := by
  cases s with
  | text cs h => simp [chars, literal, leftover, h.dropSpansFrom]
  | tag t => rfl

theorem dropSpansFrom_literal (s : Segment) : dropSpansFrom 0 s.literal = s.literal := by
  cases s with
  | text cs h => exact h.dropSpansFrom
  | tag t => rfl

end Segment

/-- Texts that begin no span, with expression tags between them. -/
abbrev Layout := List Segment

namespace Layout

def source (l : Layout) : String := String.ofList (l.flatMap Segment.chars)

/-- The texts of a layout without its tags. -/
def literals (l : Layout) : String := String.ofList (l.flatMap Segment.literal)

/-- The tags of a layout are made of whole spans. -/
def Gapless (l : Layout) : Prop := ∀ t, Segment.tag t ∈ l → Template.Gapless t.text

/-- Dropping the spans leaves the texts alone exactly when it leaves nothing of any tag. -/
theorem dropSpans_source_eq_iff (l : Layout) : dropSpans l.source = l.literals ↔ l.Gapless := by
  unfold dropSpans source literals
  rw [String.toList_ofList, String.ofList_inj, dropSpansFrom_flatMap fun s _ => s.settled]
  simp only [Segment.dropSpansFrom_chars]
  rw [flatMap_append_eq_iff]
  constructor
  · intro h t ht
    exact dropSpansFrom_eq_nil_iff.mp (h _ ht)
  · intro h s hs
    cases s with
    | text cs hcs => rfl
    | tag t => exact dropSpansFrom_eq_nil_iff.mpr (h t hs)

/-- No span is made where the texts of a layout meet. -/
theorem dropSpans_literals (l : Layout) : dropSpans l.literals = l.literals := by
  unfold dropSpans literals
  rw [String.toList_ofList, dropSpansFrom_flatMap fun s _ => s.settled_literal]
  simp only [Segment.dropSpansFrom_literal]

end Layout

end ReplicaLoad.Template

namespace ReplicaLoad

open Template

/-- Dropping its spans leaves of a template the text between its expression tags exactly when every
tag is made of whole spans. Then its identity is that of the text, and no expression can hide it. -/
theorem spans_dropped_iff (l : Layout) :
    (dropSpans l.source = l.literals ↔ l.Gapless) ∧
    (l.Gapless → Object.ofBareTemplate l.source = Object.ofBareTemplate l.literals) := by
  refine ⟨l.dropSpans_source_eq_iff, fun h => ?_⟩
  unfold Object.ofBareTemplate
  rw [l.dropSpans_source_eq_iff.mpr h, l.dropSpans_literals]

/-! ## A dictionary in a dictionary -/

theorem exists_print {r : Except Fault (List Node)}
    (h : (match r with | .ok [.print _] => true | _ => false) = true) :
    ∃ e, r = .ok [.print e] := by
  split at h
  · exact ⟨_, rfl⟩
  · cases h

/-- A template with one expression. -/
def layoutOf (t : PrintTag) : Layout :=
  [.text "kind: A\na: ".toList ⟨by decide +kernel, by decide +kernel⟩, .tag t]

/-- The closing braces of the two dictionaries stand apart. -/
def spacedTag : PrintTag where
  inside := " \x7b'b': \x7b'c': 1\x7d \x7d ".toList
  reads := exists_print (by decide +kernel)

def nestedTag : PrintTag where
  inside := " \x7b'b': \x7b'c': 1\x7d\x7d ".toList
  reads := exists_print (by decide +kernel)

/-- A tag whose dictionaries end apart is dropped, and the kind is found. -/
theorem spans_dropped_iff_spacedTag :
    (layoutOf spacedTag).Gapless ∧
    dropSpans (layoutOf spacedTag).source = "kind: A\na: " ∧
    (Object.ofBareTemplate (layoutOf spacedTag).source).map Object.resourceType =
      .ok ⟨"A", ""⟩ := by
  have hg : (layoutOf spacedTag).Gapless := by
    intro t ht
    obtain rfl : t = spacedTag := by simpa [layoutOf] using ht
    exact gapless_of_unclosed (by unfold Unclosed; decide +kernel)
  have hl : (layoutOf spacedTag).literals = "kind: A\na: " := by decide +kernel
  obtain ⟨hiff, hbare⟩ := spans_dropped_iff (layoutOf spacedTag)
  refine ⟨hg, (hiff.mpr hg).trans hl, ?_⟩
  rw [hbare hg, hl]
  decide +kernel

def nestedTemplate : String := (layoutOf nestedTag).source

/-- Where the dictionaries end together the span ends with them, and the end of the tag stays. The
template makes an object, but has no identity, so that the object cannot be deleted. -/
theorem a_dictionary_hides_the_kind :
    nestedTemplate = "kind: A\na: \x7b\x7b \x7b'b': \x7b'c': 1\x7d\x7d \x7d\x7d" ∧
    (layoutOf nestedTag).literals = "kind: A\na: " ∧
    dropSpans nestedTemplate = "kind: A\na:  \x7d\x7d" ∧
    (createdWorld nestedTemplate "a").cluster.objects.keys = [⟨"ns", "", "A", "a-0"⟩] ∧
    (Environment.ofText nestedTemplate).identify (sampleTemplate "a") =
      .error (.identifier "a.yaml" .notYaml) ∧
    ((createdWorld nestedTemplate "a").operate (.ofText nestedTemplate) (sampleTemplate "a")
      .delete "ns" 0).1 = some (.templateForDeletion "a.yaml" .notYaml) ∧
    ((createdWorld nestedTemplate "a").operate (.ofText nestedTemplate) (sampleTemplate "a")
      .delete "ns" 0).2.1.cluster.objects.keys = [⟨"ns", "", "A", "a-0"⟩] := by
  decide +kernel

end ReplicaLoad

-- Scans for spans. A scan of a text goes from span to span: it keeps what
-- stands before the first span of the text that is left, drops the span and
-- goes on behind it, until no span is left. Every scan ends, there is one scan
-- of each text only, and what it keeps is the text without its spans. In what
-- is kept there is no span either, also not where the pieces around a dropped
-- one meet, since an opening brace is never left over in front of a span.
import ReplicaLoad.Proofs.ExpressionSpans

namespace ReplicaLoad.Template

/-! ## First braces -/

/-- Opening braces right behind a text are the first ones, also with its last character. -/
def Unopened (before : List Char) : Prop := ¬ openBraces <:+: before ++ ['\x7b']

theorem unopened_nil : Unopened [] := by
  intro h
  have := h.length_le
  simp [openBraces] at this

theorem unopened_cons {c : Char} {before : List Char} : Unopened (c :: before) ↔
    ¬ (c = '\x7b' ∧ (before ++ ['\x7b']).head? = some '\x7b') ∧ Unopened before := by
  unfold Unopened
  rw [List.cons_append, List.infix_cons_iff, not_or]
  refine and_congr_left' (not_congr ?_)
  constructor
  · rintro ⟨more, hmore⟩
    obtain ⟨rfl, htail⟩ := List.cons.inj hmore
    exact ⟨rfl, by rw [← htail]; rfl⟩
  · rintro ⟨rfl, hhead⟩
    obtain ⟨more, hmore⟩ := List.head?_eq_some_iff.mp hhead
    exact ⟨more, by rw [hmore]; rfl⟩

/-- No opening braces begin inside such a text, whatever follows it. -/
theorem Unopened.not_opening {c : Char} {before : List Char} (h : Unopened (c :: before))
    (cs : List Char) : ¬ (c = '\x7b' ∧ (before ++ cs).head? = some '\x7b') := by
  rintro ⟨hc, hhead⟩
  refine (unopened_cons.mp h).1 ⟨hc, ?_⟩
  cases before with
  | nil => rfl
  | cons d before => exact hhead

theorem Unopened.tail {c : Char} {before : List Char} (h : Unopened (c :: before)) :
    Unopened before := (unopened_cons.mp h).2

/-- No span begins in such a text, so there is none if none comes behind it. -/
theorem Unopened.spanless_append {before cs : List Char} (h : Unopened before)
    (hcs : Spanless cs) : Spanless (before ++ cs) := by
  induction before with
  | nil => exact hcs
  | cons c before ih =>
    intro front inside after heq
    cases front with
    | nil =>
      obtain ⟨hc, htail⟩ := List.cons.inj heq
      exact h.not_opening cs ⟨hc, congrArg List.head? htail⟩
    | cons d front => exact ih h.tail front inside after (List.cons.inj heq).2

/-! ## One turn -/

/-- A piece of a text: what stands before a span, and the span. The span begins at the first opening
braces and ends at the first closing braces behind them. -/
structure Stretch where
  before : List Char
  inside : List Char
  opens : Unopened before
  closes : Unclosed inside

def Stretch.text (s : Stretch) : List Char := s.before ++ tagOf s.inside

/-- One turn of a scan leaves of a text what stands behind its first span. -/
def ScanTurn (rest cs : List Char) : Prop := ∃ s : Stretch, cs = s.text ++ rest

theorem ScanTurn.length_lt {rest cs : List Char} (h : ScanTurn rest cs) :
    rest.length < cs.length := by
  obtain ⟨s, rfl⟩ := h
  simp [Stretch.text, tagOf, openBraces]
  omega

/-- A turn always advances, so every scan ends. -/
theorem wellFounded_scanTurn : WellFounded ScanTurn :=
  Subrelation.wf ScanTurn.length_lt (measure List.length).wf

theorem ScanTurn.not_spanless {rest cs : List Char} (h : ScanTurn rest cs) : ¬ Spanless cs := by
  obtain ⟨s, rfl⟩ := h
  exact fun hs => hs s.before s.inside rest rfl

/-- A turn can be taken if a text begins with opening braces and there are closing ones anywhere
behind them. -/
theorem exists_scanTurn_of_opening (inside after : List Char) :
    ∃ rest, ScanTurn rest (tagOf inside ++ after) := by
  obtain ⟨n, hn⟩ := Option.isSome_iff_exists.mp (isSome_closeAt?_append inside)
  -- the first closing braces may come before those at the end of the tag
  obtain ⟨x, rest, heq, -, hx⟩ := exists_of_closeAt? (closeAt?_append hn after)
  refine ⟨rest, ⟨[], x, unopened_nil, hx⟩, ?_⟩
  simp only [Stretch.text, tagOf, List.nil_append, List.append_assoc] at heq ⊢
  rw [heq]

theorem ScanTurn.exists_cons {rest cs : List Char} (h : ScanTurn rest cs) (c : Char) :
    ∃ rest', ScanTurn rest' (c :: cs) := by
  obtain ⟨s, rfl⟩ := h
  by_cases hc : c = '\x7b' ∧ (s.before ++ ['\x7b']).head? = some '\x7b'
  · -- the character makes an earlier opening
    obtain ⟨rfl, hhead⟩ := hc
    cases hb : s.before with
    | nil =>
      have heq : '\x7b' :: (s.text ++ rest) = tagOf ('\x7b' :: s.inside) ++ rest := by
        rw [Stretch.text, hb]
        rfl
      rw [heq]
      exact exists_scanTurn_of_opening _ _
    | cons d before =>
      rw [hb] at hhead
      obtain rfl : d = '\x7b' := Option.some.inj hhead
      have heq : '\x7b' :: (s.text ++ rest) =
          tagOf (before ++ openBraces ++ s.inside) ++ rest := by
        rw [Stretch.text, hb]
        simp [tagOf, openBraces]
      rw [heq]
      exact exists_scanTurn_of_opening _ _
  · exact ⟨rest, ⟨c :: s.before, s.inside, unopened_cons.mpr ⟨hc, s.opens⟩, s.closes⟩, rfl⟩

/-- A turn can be taken as long as a span is left. -/
theorem exists_scanTurn_iff {cs : List Char} : (∃ rest, ScanTurn rest cs) ↔ ¬ Spanless cs := by
  constructor
  · rintro ⟨rest, h⟩
    exact h.not_spanless
  · intro h
    unfold Spanless at h
    push Not at h
    obtain ⟨before, inside, after, rfl⟩ := h
    induction before with
    | nil => exact exists_scanTurn_of_opening inside after
    | cons c before ih =>
      obtain ⟨rest, hrest⟩ := ih
      exact hrest.exists_cons c

/-! ## Whole scans -/

/-- A scan of a text: the stretches of its turns one after the other, and the rest, in which no span
is left. -/
structure Scan (cs : List Char) where
  stretches : List Stretch
  rest : List Char
  whole : cs = stretches.flatMap Stretch.text ++ rest
  ends : Spanless rest

def Scan.kept {cs : List Char} (s : Scan cs) : List Char :=
  s.stretches.flatMap Stretch.before ++ s.rest

/-- Of two texts in front of a pair of equal characters that is the first one, the longer one adds
nothing. -/
theorem eq_nil_of_first_pair {d : Char} {xs zs more more' : List Char}
    (h : [d, d] ++ more = zs ++ ([d, d] ++ more')) (hz : ¬ [d, d] <:+: xs ++ zs ++ [d]) :
    zs = [] := by
  cases zs with
  | nil => rfl
  | cons z zs =>
    exfalso
    obtain ⟨rfl, htail⟩ := List.cons.inj h
    -- the character that follows is the other one of the pair
    have hhead : (zs ++ [d]).head? = some d := by
      cases zs with
      | nil => rfl
      | cons w zs => exact congrArg some (List.cons.inj htail).1.symm
    obtain ⟨rest, hrest⟩ := List.head?_eq_some_iff.mp hhead
    exact hz ⟨xs, rest, by simp [hrest]⟩

/-- The first pair of equal characters stands at one place only. -/
theorem first_pair_unique {d : Char} {xs ys more more' : List Char}
    (h : xs ++ ([d, d] ++ more) = ys ++ ([d, d] ++ more')) (hx : ¬ [d, d] <:+: xs ++ [d])
    (hy : ¬ [d, d] <:+: ys ++ [d]) : xs = ys ∧ more = more' := by
  rcases List.append_eq_append_iff.mp h with ⟨zs, rfl, hz⟩ | ⟨zs, rfl, hz⟩
  · obtain rfl := eq_nil_of_first_pair hz hy
    exact ⟨(List.append_nil xs).symm, List.append_cancel_left hz⟩
  · obtain rfl := eq_nil_of_first_pair hz hx
    exact ⟨List.append_nil ys, List.append_cancel_left hz.symm⟩

theorem Stretch.unique {s t : Stretch} {rest rest' : List Char}
    (h : s.text ++ rest = t.text ++ rest') : s = t ∧ rest = rest' := by
  obtain ⟨before, inside, opens, closes⟩ := s
  obtain ⟨before', inside', opens', closes'⟩ := t
  simp only [Stretch.text, tagOf, List.append_assoc] at h
  obtain ⟨rfl, hinside⟩ := first_pair_unique h opens opens'
  obtain ⟨rfl, hrest⟩ := first_pair_unique hinside closes closes'
  exact ⟨rfl, hrest⟩

theorem exists_scan (cs : List Char) : Nonempty (Scan cs) := by
  induction cs using wellFounded_scanTurn.induction with
  | _ cs ih =>
    by_cases h : Spanless cs
    · exact ⟨⟨[], cs, rfl, h⟩⟩
    · obtain ⟨rest, s, hs⟩ := exists_scanTurn_iff.mpr h
      obtain ⟨scan⟩ := ih rest ⟨s, hs⟩
      refine ⟨⟨s :: scan.stretches, scan.rest, ?_, scan.ends⟩⟩
      rw [List.flatMap_cons, List.append_assoc, ← scan.whole, hs]

theorem stretches_unique {xs ys : List Stretch} {rest rest' : List Char}
    (h : xs.flatMap Stretch.text ++ rest = ys.flatMap Stretch.text ++ rest')
    (hrest : Spanless rest) (hrest' : Spanless rest') : xs = ys ∧ rest = rest' := by
  induction xs generalizing ys with
  | nil =>
    cases ys with
    | nil => exact ⟨rfl, h⟩
    | cons y ys =>
      rw [List.flatMap_cons, List.append_assoc] at h
      exact absurd hrest (ScanTurn.not_spanless ⟨y, h⟩)
  | cons x xs ih =>
    rw [List.flatMap_cons, List.append_assoc] at h
    cases ys with
    | nil => exact absurd hrest' (ScanTurn.not_spanless ⟨x, h.symm⟩)
    | cons y ys =>
      rw [List.flatMap_cons, List.append_assoc] at h
      obtain ⟨rfl, htail⟩ := Stretch.unique h
      obtain ⟨rfl, rfl⟩ := ih htail
      exact ⟨rfl, rfl⟩

namespace Scan

variable {cs : List Char}

theorem unique (s t : Scan cs) : s = t := by
  obtain ⟨stretches, rest, whole, ends⟩ := s
  obtain ⟨stretches', rest', whole', ends'⟩ := t
  obtain ⟨rfl, rfl⟩ := stretches_unique (whole.symm.trans whole') ends ends'
  rfl

/-- No span is made where the pieces meet that a scan keeps. -/
theorem spanless_kept (s : Scan cs) : Spanless s.kept := by
  have hkept : ∀ stretches : List Stretch,
      Spanless (stretches.flatMap Stretch.before ++ s.rest) := by
    intro stretches
    induction stretches with
    | nil => exact s.ends
    | cons x xs ih =>
      rw [List.flatMap_cons, List.append_assoc]
      exact x.opens.spanless_append ih
  exact hkept s.stretches

end Scan

/-! ## The text without its spans -/

/-- Of a stretch what stands before its span is kept. -/
theorem Stretch.dropSpansFrom (s : Stretch) (rest : List Char) :
    dropSpansFrom 0 (s.text ++ rest) = s.before ++ dropSpansFrom 0 rest := by
  obtain ⟨before, inside, opens, closes⟩ := s
  simp only [text, List.append_assoc]
  induction before with
  | nil => exact dropSpansFrom_tagOf closes rest
  | cons c before ih =>
    have hnone : spanLength? (c :: (before ++ (tagOf inside ++ rest))) = none := by
      rw [spanLength?_cons, if_neg (opens.not_opening _)]
    rw [List.cons_append, Template.dropSpansFrom, hnone]
    dsimp only
    rw [ih opens.tail, List.cons_append]

theorem Scan.dropSpansFrom {cs : List Char} (s : Scan cs) : dropSpansFrom 0 cs = s.kept := by
  obtain ⟨stretches, rest, rfl, ends⟩ := s
  induction stretches with
  | nil => exact ends.dropSpansFrom
  | cons x xs ih =>
    have hrest : Template.dropSpansFrom 0 (xs.flatMap Stretch.text ++ rest) =
        xs.flatMap Stretch.before ++ rest := ih
    simp only [kept, List.flatMap_cons, List.append_assoc]
    rw [x.dropSpansFrom, hrest]

theorem spanless_dropSpans (source : String) : Spanless (dropSpans source).toList := by
  obtain ⟨scan⟩ := exists_scan source.toList
  unfold dropSpans
  rw [String.toList_ofList, scan.dropSpansFrom]
  exact scan.spanless_kept

theorem dropSpans_eq_self {source : String} (h : Spanless source.toList) :
    dropSpans source = source := by
  unfold dropSpans
  rw [h.dropSpansFrom, String.ofList_toList]

end ReplicaLoad.Template

namespace ReplicaLoad

open Template

/-- The scan of a text takes turns as long as a span is left, and ends. There is one scan of each
text, and what it keeps is the text without its spans. No span is left in it, so that a text
is kept as it is exactly if it has no span, and to drop spans twice is to drop them once. -/
theorem spans_scanned (source : String) :
    Acc ScanTurn source.toList ∧
    (∀ cs, (∃ rest, ScanTurn rest cs) ↔ ¬ Spanless cs) ∧
    (∃ scan : Scan source.toList, (∀ other, other = scan) ∧
      (dropSpans source).toList = scan.kept) ∧
    Spanless (dropSpans source).toList ∧
    (dropSpans source = source ↔ Spanless source.toList) ∧
    dropSpans (dropSpans source) = dropSpans source := by
  have hkept := spanless_dropSpans source
  refine ⟨wellFounded_scanTurn.apply _, fun cs => exists_scanTurn_iff, ?_, hkept, ?_,
    dropSpans_eq_self hkept⟩
  · obtain ⟨scan⟩ := exists_scan source.toList
    refine ⟨scan, fun other => other.unique scan, ?_⟩
    rw [dropSpans, String.toList_ofList, scan.dropSpansFrom]
  · constructor
    · intro h
      rwa [h] at hkept
    · exact dropSpans_eq_self

end ReplicaLoad

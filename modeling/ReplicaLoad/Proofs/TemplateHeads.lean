-- The head of a template. A text without opening braces at the start of a
-- template is printed as it stands, whatever the values are, and also when the
-- expression tags behind it are dropped. It only has to end with a character
-- that a tag cannot take away: a tag removes white space before it.
import ReplicaLoad.Template.Library

namespace ReplicaLoad.Template

/-- A text that no tag behind it changes. -/
structure Kept (head : List Char) : Prop where
  braceless : ∀ x ∈ head, x ≠ '\x7b'
  ends : ∃ front last, head = front ++ [last] ∧ Text.isBlank last = false

variable {head cs : List Char}

/-! ## Dropped spans -/

theorem spanLength?_of_ne {x : Char} (h : x ≠ '\x7b') (cs : List Char) :
    spanLength? (x :: cs) = none := by
  unfold spanLength?
  split
  · rename_i heq
    exact absurd (List.cons.inj heq).1 h
  · rfl

theorem dropSpansFrom_append (h : ∀ x ∈ head, x ≠ '\x7b') (cs : List Char) :
    dropSpansFrom 0 (head ++ cs) = head ++ dropSpansFrom 0 cs := by
  induction head with
  | nil => rfl
  | cons x rest ih =>
    rw [List.cons_append, dropSpansFrom, spanLength?_of_ne (h x List.mem_cons_self),
      ih fun y hy => h y (List.mem_cons_of_mem _ hy)]
    rfl

/-- The head of a template is there when its spans are dropped. -/
theorem Kept.dropSpans (h : Kept head) {source : String} (hs : head <+: source.toList) :
    head <+: (dropSpans source).toList := by
  obtain ⟨rest, hs⟩ := hs
  unfold Template.dropSpans
  rw [← hs, dropSpansFrom_append h.braceless, String.toList_ofList]
  exact List.prefix_append _ _

/-! ## Pieces -/

theorem spanText_append (h : ∀ x ∈ head, x ≠ '\x7b') (cs : List Char) :
    spanText (head ++ cs) = (head ++ (spanText cs).1, (spanText cs).2) := by
  induction head with
  | nil => rfl
  | cons x rest ih =>
    have hx : x ≠ '\x7b' := h x List.mem_cons_self
    rw [List.cons_append, spanText, ih fun y hy => h y (List.mem_cons_of_mem _ hy)]
    · rfl
    · rintro c rest' rfl
      exact absurd rfl hx

theorem dropWhile_append_of_neg {p : Char → Bool} {last : Char} (hp : p last = false)
    (xs ys : List Char) :
    (xs ++ last :: ys).dropWhile p = xs.dropWhile p ++ last :: ys := by
  induction xs with
  | nil => simp [hp]
  | cons x rest ih =>
    rw [List.cons_append, List.dropWhile_cons, List.dropWhile_cons, ih]
    split
    · rfl
    · rfl

theorem Kept.trimRight (h : Kept head) (hp : head <+: cs) : head <+: trimRight cs := by
  obtain ⟨rest, rfl⟩ := hp
  obtain ⟨front, last, rfl, hl⟩ := h.ends
  have hrev : ((front ++ [last]) ++ rest).reverse = rest.reverse ++ last :: front.reverse := by simp
  refine ⟨Template.trimRight rest, ?_⟩
  unfold Template.trimRight
  rw [hrev, dropWhile_append_of_neg hl]
  simp

/-- The end of a text does not reach into a head that ends with another character. -/
theorem prefix_dropLast {front : List Char} {last c : Char} (hne : last ≠ c)
    (hp : front ++ [last] <+: cs) :
    front ++ [last] <+: if cs.getLast? = some c then cs.dropLast else cs := by
  obtain ⟨rest, rfl⟩ := hp
  split
  · rename_i hc
    have hrest : rest ≠ [] := by
      rintro rfl
      simp [hne] at hc
    rw [List.dropLast_append_of_ne_nil hrest]
    exact List.prefix_append _ _
  · exact List.prefix_append _ _

theorem Kept.dropLastBreak (h : Kept head) (hp : head <+: cs) : head <+: dropLastBreak cs := by
  obtain ⟨front, last, rfl, hl⟩ := h.ends
  have hn : last ≠ '\n' := by
    rintro rfl
    exact absurd hl (by decide)
  have hr : last ≠ '\r' := by
    rintro rfl
    exact absurd hl (by decide)
  exact prefix_dropLast hr (prefix_dropLast hn hp)

/-- The first piece of a template holds its head. -/
theorem Kept.cut (h : Kept head) (hp : head <+: cs) {fuel : Nat} {ps : List Piece}
    (hc : cut fuel false cs = .ok ps) :
    ∃ text more, ps = .text text :: more ∧ head <+: text.toList := by
  obtain ⟨front, last, hfront, -⟩ := h.ends
  have hbrace : cs.head? ≠ some '\x7b' := by
    obtain ⟨rest, rfl⟩ := hp
    intro hx
    cases head with
    | nil => simp at hfront
    | cons x tail =>
      cases hx
      exact h.braceless _ List.mem_cons_self rfl
  have hspan : head <+: (spanText cs).1 := by
    obtain ⟨rest, rfl⟩ := hp
    rw [spanText_append h.braceless]
    exact List.prefix_append _ _
  cases fuel with
  | zero => cases hc
  | succ fuel =>
    unfold Template.cut at hc
    split at hc
    · obtain ⟨rest, hr⟩ := hp
      simp [hfront] at hr
    · exact absurd rfl hbrace
    · exact absurd rfl hbrace
    · exact absurd rfl hbrace
    · simp only [Bool.false_eq_true, if_false] at hc
      cases hmore : Template.cut fuel false (spanText cs).2 with
      | error e =>
        rw [hmore] at hc
        cases hc
      | ok more =>
        rw [hmore] at hc
        cases hc
        refine ⟨_, more, rfl, ?_⟩
        rw [String.toList_ofList]
        split
        · exact h.trimRight hspan
        · exact hspan

/-! ## Printed texts -/

theorem block_text {fuel : Nat} {ends : List String} {text : String} {ps rest : List Piece}
    {nodes : List Node} {closing : Option (String × List Token)}
    (h : block fuel ends (.text text :: ps) = some (nodes, closing, rest)) :
    ∃ more, nodes = .text text :: more := by
  cases fuel with
  | zero =>
    unfold block at h
    cases h
  | succ fuel =>
    unfold block at h
    obtain ⟨⟨more, closing', rest'⟩, -, heq⟩ := Option.bind_eq_some_iff.mp h
    cases heq
    exact ⟨more, rfl⟩

/-- The first node of a template prints its head. -/
theorem Kept.parse (h : Kept head) {source : String} (hs : head <+: source.toList)
    {nodes : List Node} (hp : parse source = .ok nodes) :
    ∃ text more, nodes = .text text :: more ∧ head <+: text.toList := by
  unfold Template.parse at hp
  cases hps : pieces source with
  | error e =>
    rw [hps] at hp
    cases hp
  | ok ps =>
    obtain ⟨text, more, rfl, htext⟩ := h.cut (h.dropLastBreak hs) hps
    rw [hps] at hp
    dsimp only [bind, Except.bind] at hp
    split at hp
    · rename_i heq
      cases hp
      obtain ⟨nodes', rfl⟩ := block_text heq
      exact ⟨text, nodes', rfl, htext⟩
    · cases hp

/-- The head of a template is printed in front of everything else. -/
theorem Kept.renderText (h : Kept head) {source printed : String} (hs : head <+: source.toList)
    {mode : Mode} {values : Dict} (hr : renderText mode values source = .ok printed) :
    head <+: printed.toList := by
  unfold Template.renderText at hr
  cases hp : Template.parse source with
  | error e =>
    rw [hp] at hr
    cases hr
  | ok nodes =>
    obtain ⟨text, more, rfl, htext⟩ := h.parse hs hp
    rw [hp] at hr
    cases hmore : renderAll { mode, values := Datum.ofEntries values } more with
    | error e => simp [renderAll, Node.render, hmore, bind, Except.bind] at hr
    | ok printed' =>
      simp only [renderAll, Node.render, hmore, bind, Except.bind, pure, Except.pure,
        Except.ok.injEq] at hr
      rw [← hr, String.toList_append]
      exact htext.trans (List.prefix_append _ _)

/-! ## Templates without tags -/

def Braceless (source : String) : Prop := ∀ x ∈ source.toList, x ≠ '\x7b'

variable {source : String}

theorem Braceless.dropSpans (h : Braceless source) : dropSpans source = source := by
  have hall := dropSpansFrom_append h []
  rw [List.append_nil] at hall
  unfold Template.dropSpans
  rw [hall]
  simp [dropSpansFrom]

theorem mem_of_mem_dropLastBreak {x : Char} (h : x ∈ dropLastBreak cs) : x ∈ cs := by
  unfold dropLastBreak at h
  dsimp only at h
  split at h <;> split at h
  · exact List.dropLast_subset _ (List.dropLast_subset _ h)
  · exact List.dropLast_subset _ h
  · exact List.dropLast_subset _ h
  · exact h

/-- A template without braces is one piece at most. -/
theorem cut_of_braceless (h : ∀ x ∈ cs, x ≠ '\x7b') :
    cut (cs.length + 1) false cs =
      .ok (if cs = [] then [] else [.text (String.ofList cs)]) := by
  cases cs with
  | nil => rfl
  | cons x rest =>
    have hx : x ≠ '\x7b' := h x List.mem_cons_self
    have hspan : spanText (x :: rest) = (x :: rest, []) := by
      simpa [spanText] using spanText_append h []
    unfold cut
    split
    · rename_i heq
      cases heq
    · rename_i heq
      exact absurd (List.cons.inj heq).1 hx
    · rename_i heq
      exact absurd (List.cons.inj heq).1 hx
    · rename_i heq
      exact absurd (List.cons.inj heq).1 hx
    · simp only [Bool.false_eq_true, if_false, hspan]
      rfl

/-- A template without tags is printed as it is. -/
theorem renderText_of_text {text : String} (h : parse source = .ok [.text text]) (mode : Mode)
    (values : Dict) : renderText mode values source = .ok text := by
  simp [renderText, h, renderAll, Node.render, bind, Except.bind, pure, Except.pure]

/-- A template without braces prints the same whatever the values are. -/
theorem Braceless.renderText (h : Braceless source) (mode mode' : Mode) (values values' : Dict) :
    renderText mode values source = renderText mode' values' source := by
  have hpieces : pieces source = .ok (if dropLastBreak source.toList = [] then []
      else [.text (String.ofList (dropLastBreak source.toList))]) :=
    cut_of_braceless fun x hx => h x (mem_of_mem_dropLastBreak hx)
  by_cases hnil : dropLastBreak source.toList = []
  · have hparse : Template.parse source = .ok [] := by
      unfold Template.parse
      rw [hpieces, if_pos hnil]
      rfl
    simp [Template.renderText, hparse, renderAll, bind, Except.bind]
  · have hparse : Template.parse source =
        .ok [.text (String.ofList (dropLastBreak source.toList))] := by
      unfold Template.parse
      rw [hpieces, if_neg hnil]
      rfl
    rw [renderText_of_text hparse, renderText_of_text hparse]

end ReplicaLoad.Template

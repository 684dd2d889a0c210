-- The identity of a template. A replica is created with the kind and the API
-- group of its rendered template, and deleted with those of the bare template.
-- The two are the same for a template that says both in plain lines at its
-- start; where they are not, a delete does not find what a create has made.
import ReplicaLoad.Proofs.FirstEntries
import ReplicaLoad.Proofs.Interleaving
import ReplicaLoad.Proofs.ObjectCalls
import ReplicaLoad.Proofs.ReplicaNames
import ReplicaLoad.Proofs.TemplateHeads

namespace ReplicaLoad

/-! ## Plain heads -/

namespace Yaml

theorem isSpace_of_isBlank {x : Char} (h : Text.isBlank x = false) : isSpace x = false :=
  isSpace_of_ne h (by decide)

theorem PlainLine.ne_of_mem_text {l : PlainLine} {x : Char} (hx : x ∈ l.text) : x ≠ '\x7b' := by
  have hplain : ∀ {y}, isPlainChar y = true → y ≠ '\x7b' := fun h =>
    ne_of_isPlainChar h (by decide)
  unfold PlainLine.text at hx
  simp only [List.mem_append, List.mem_cons, List.not_mem_nil, or_false] at hx
  rcases hx with hx | rfl | rfl | hx | rfl
  · exact hplain (l.plainName.plain x hx)
  · decide
  · decide
  · exact hplain (l.plainWord.plain x hx)
  · decide

end Yaml

namespace Template

variable {lines : List Yaml.PlainLine} {source printed : String}

/-- A template that begins with plain lines, its kind and its API version among them. -/
structure Headed (lines : List Yaml.PlainLine) (source : String) : Prop where
  begins : ∃ x, x ≠ '\x7b' ∧ Text.isBlank x = false ∧
    lines.flatMap Yaml.PlainLine.text ++ [x] <+: source.toList
  kind : "kind" ∈ lines.map Yaml.PlainLine.key
  apiVersion : "apiVersion" ∈ lines.map Yaml.PlainLine.key

/-- Plain lines before a character that is no part of a tag are kept. -/
theorem kept_of_lines {x : Char} (hbrace : x ≠ '\x7b') (hblank : Text.isBlank x = false) :
    Kept (lines.flatMap Yaml.PlainLine.text ++ [x]) where
  braceless := by
    intro y hy
    rcases List.mem_append.mp hy with hy | hy
    · obtain ⟨l, -, hy⟩ := List.mem_flatMap.mp hy
      exact l.ne_of_mem_text hy
    · cases List.mem_singleton.mp hy
      exact hbrace
  ends := ⟨_, x, rfl, hblank⟩

theorem Headed.dropSpans (h : Headed lines source) : Headed lines (dropSpans source) := by
  obtain ⟨x, hbrace, hblank, hs⟩ := h.begins
  exact ⟨⟨x, hbrace, hblank, (kept_of_lines hbrace hblank).dropSpans hs⟩, h.kind, h.apiVersion⟩

/-- What a template prints begins with its plain lines. -/
theorem Headed.renderText (h : Headed lines source) {mode : Mode} {values : Dict}
    (hr : renderText mode values source = .ok printed) :
    ∃ x rest, printed.toList = lines.flatMap Yaml.PlainLine.text ++ x :: rest ∧
      Yaml.isSpace x = false := by
  obtain ⟨x, hbrace, hblank, hs⟩ := h.begins
  obtain ⟨rest, hrest⟩ := (kept_of_lines hbrace hblank).renderText hs hr
  refine ⟨x, rest, ?_, Yaml.isSpace_of_isBlank hblank⟩
  rw [← hrest]
  simp

end Template

/-! ## Identities -/

variable {lines : List Yaml.PlainLine} {text source : String} {found made bare : Object}
  {values : Dict}

/-- An object has the word of a plain line under its name, unless another entry replaces it. -/
theorem topText_of_lines {x : Char} {rest : List Char}
    (hs : text.toList = lines.flatMap Yaml.PlainLine.text ++ x :: rest)
    (hx : Yaml.isSpace x = false) (h : Object.ofRendered text = .ok found) {l : Yaml.PlainLine}
    (hl : l ∈ lines) (hone : Yaml.NamedOnce l.key text) :
    found.topText l.key = (l.value?.bind Value.text?).getD "" := by
  unfold Object.ofRendered at h
  split at h
  · cases h
  · rename_i v hv
    cases lines with
    | nil => cases hl
    | cons line lines =>
      obtain ⟨entries, rfl, hget⟩ := Yaml.get?_of_lines hs hx hv hl hone
      dsimp only [Object.ofValue?] at h
      split at h
      · cases h
      · cases h
        unfold Object.topText
        rw [hget]

theorem ofTemplate_ok (h : Object.ofTemplate values source = .ok made) :
    ∃ printed, Template.renderText .strict values source = .ok printed ∧
      Object.ofRendered printed = .ok made := by
  unfold Object.ofTemplate at h
  split at h
  · cases h
  · rename_i printed hp
    exact ⟨printed, hp, h⟩

theorem ofBareTemplate_ok (h : Object.ofBareTemplate source = .ok bare) :
    ∃ printed, Template.renderText .lenient [] (Template.dropSpans source) = .ok printed ∧
      Object.ofRendered printed = .ok bare := by
  unfold Object.ofBareTemplate at h
  split at h
  · cases h
  · rename_i printed hp
    exact ⟨printed, hp, h⟩

/-- A template that says its kind and its API version in one way: it has no tags, or it says them in
plain lines at its start and nothing that it prints says them again. -/
inductive Template.PlainIdentity (values : Dict) (source : String) : Prop where
  | braceless (h : Braceless source)
  | headed (lines : List Yaml.PlainLine) (h : Headed lines source)
    (once : ∀ printed, renderText .strict values source = .ok printed ∨
      renderText .lenient [] (dropSpans source) = .ok printed →
      Yaml.NamedOnce "kind" printed ∧ Yaml.NamedOnce "apiVersion" printed)

/-- A plain identity does not depend on how the template is rendered. -/
theorem Template.PlainIdentity.resourceType_eq (h : PlainIdentity values source)
    (hmade : Object.ofTemplate values source = .ok made)
    (hbare : Object.ofBareTemplate source = .ok bare) :
    made.resourceType = bare.resourceType := by
  obtain ⟨strict, hstrict, hmade⟩ := ofTemplate_ok hmade
  obtain ⟨lenient, hlenient, hbare⟩ := ofBareTemplate_ok hbare
  cases h with
  | braceless h =>
    rw [h.dropSpans, h.renderText .lenient .strict [] values, hstrict] at hlenient
    cases hlenient
    rw [hmade] at hbare
    cases hbare
    rfl
  | headed lines h once =>
    obtain ⟨x, rest, hs, hx⟩ := h.renderText hstrict
    obtain ⟨y, more, hs', hy⟩ := h.dropSpans.renderText hlenient
    have htext : ∀ key ∈ lines.map Yaml.PlainLine.key, Yaml.NamedOnce key strict →
        Yaml.NamedOnce key lenient → made.topText key = bare.topText key := by
      intro key hkey hone hone'
      obtain ⟨l, hl, rfl⟩ := List.mem_map.mp hkey
      rw [topText_of_lines hs hx hmade hl hone, topText_of_lines hs' hy hbare hl hone']
    have hkind := htext "kind" h.kind (once _ (.inl hstrict)).1 (once _ (.inr hlenient)).1
    have hversion := htext "apiVersion" h.apiVersion (once _ (.inl hstrict)).2
      (once _ (.inr hlenient)).2
    unfold Object.resourceType Object.groupVersionKind Object.kind Object.apiVersion
    rw [hkind, hversion]

/-! ## Created and deleted -/

/-- Where the cluster keeps an object that has been made for a replica. -/
def createdKey (ns : String) (o : ObjectTemplate) (i : Nat) (made : Object) : ObjectKey :=
  Cluster.key ns made.groupVersionKind (o.objectName i)

variable {env : Environment} {o : ObjectTemplate} {i : Nat} {ns : String}

theorem createdKey_eq_iff (ns : String) (o : ObjectTemplate) (i : Nat) :
    createdKey ns o i bare = createdKey ns o i made ↔ made.resourceType = bare.resourceType := by
  unfold createdKey Cluster.key Object.resourceType
  rw [bare.kind_groupVersionKind, made.kind_groupVersionKind]
  simp only [ObjectKey.mk.injEq, ResourceType.mk.injEq, true_and, and_true]
  exact ⟨fun h => ⟨h.2.symm, h.1.symm⟩, fun h => ⟨h.2.symm, h.1.symm⟩⟩

theorem key_delete :
    (Request.delete bare.groupVersionKind).key ns (o.objectName i) = createdKey ns o i bare := rfl

theorem request_create (hmade : env.object o.path (o.values i) = .ok made) :
    env.request o i .create = .ok (.create made) := by
  unfold Environment.request
  rw [hmade]

theorem request_delete (hbare : env.bareObject o.path = .ok bare) (i : Nat) :
    env.request o i .delete = .ok (.delete bare.groupVersionKind) := by
  unfold Environment.request
  rw [hbare]

/-- A create that succeeds leaves the object under its key. -/
theorem isSome_create (hmade : env.object o.path (o.values i) = .ok made) {w : World}
    (hok : (w.operate env o .create ns i).1 = none) :
    ((w.operate env o .create ns i).2.1.cluster.view (createdKey ns o i made)).isSome = true := by
  have ha := w.answers_operate (request_create hmade) ns
  have hnone : w.cluster.refusal (.create made) ns (o.objectName i) = none := by
    obtain ⟨-, hr⟩ := w.cluster.create_answers ns (o.objectName i) made
    cases href : w.cluster.refusal (.create made) ns (o.objectName i) with
    | none => rfl
    | some e =>
      rw [href] at hr
      have hc : w.cluster.create ns (o.objectName i) made =
          (.error e, (w.cluster.create ns (o.objectName i) made).2) := Prod.ext hr rfl
      unfold World.operate at hok
      rw [request_create hmade] at hok
      dsimp only [World.send] at hok
      rw [hc] at hok
      cases hok
  rw [ha.view, if_pos ⟨rfl, hnone⟩]
  rfl

/-- A delete of what is held under the key that it looks for is not refused. -/
theorem refusal_delete {w : World} (hname : o.objectName i ∉ w.cluster.failingNames)
    (hheld : (w.cluster.view (createdKey ns o i bare)).isSome = true) :
    w.cluster.refusal (.delete bare.groupVersionKind) ns (o.objectName i) = none := by
  unfold Cluster.refusal
  rw [key_delete, hheld, decide_eq_false hname]
  rfl

/-- A delete removes the created object exactly when it looks for its kind. -/
theorem view_delete_iff (hbare : env.bareObject o.path = .ok bare) {w : World}
    (hname : o.objectName i ∉ w.cluster.failingNames)
    (hheld : (w.cluster.view (createdKey ns o i made)).isSome = true) :
    (w.operate env o .delete ns i).2.1.cluster.view (createdKey ns o i made) = none ↔
      made.resourceType = bare.resourceType := by
  have ha := w.answers_operate (request_delete hbare i) ns
  rw [ha.view, key_delete, ← createdKey_eq_iff ns o i]
  constructor
  · intro hnone
    by_contra hne
    rw [if_neg fun h => hne h.1] at hnone
    rw [hnone] at hheld
    cases hheld
  · intro heq
    rw [← heq] at hheld
    rw [if_pos ⟨heq, refusal_delete hname hheld⟩]
    rfl

/-- A delete that looks for the kind of the created object succeeds. -/
theorem delete_ok (hbare : env.bareObject o.path = .ok bare) {w : World}
    (hname : o.objectName i ∉ w.cluster.failingNames)
    (hheld : (w.cluster.view (createdKey ns o i bare)).isSome = true) :
    (w.operate env o .delete ns i).1 = none := by
  obtain ⟨-, hr⟩ := w.cluster.delete_answers bare.groupVersionKind ns (o.objectName i)
  rw [refusal_delete hname hheld] at hr
  have hc : w.cluster.delete bare.groupVersionKind ns (o.objectName i) =
      (.ok (), (w.cluster.delete bare.groupVersionKind ns (o.objectName i)).2) := Prod.ext hr rfl
  unfold World.operate
  rw [request_delete hbare]
  dsimp only [World.send]
  rw [hc]

/-- The identifier of a template names the key of the created object exactly when it has its
kind. -/
theorem replicaKey_identify_iff (hbare : env.bareObject o.path = .ok bare) {g : ReplicaGroup}
    (hg : env.identify o = .ok g) :
    replicaKey (ns, g) i = createdKey ns o i made ↔ made.resourceType = bare.resourceType := by
  unfold Environment.identify at hg
  rw [hbare] at hg
  cases hg
  have hkey : replicaKey (ns, ⟨o.basename, bare.kind, bare.groupVersionKind.group⟩) i =
      createdKey ns o i bare := by
    rw [createdKey, Cluster.key, bare.kind_groupVersionKind]
    rfl
  rw [hkey, createdKey_eq_iff]

/-! ## Two templates -/

/-- An environment in which every template is one text. -/
def Environment.ofText (source : String) : Environment where
  templates := fun _ => .ok source
  scope := "run"

/-- The world in which the first replica of a template has been created. -/
def createdWorld (source basename : String) : World :=
  (({} : World).operate (.ofText source) (sampleTemplate basename) .create "ns" 0).2.1

def deploymentTemplate : String :=
  "apiVersion: apps/v1\nkind: Deployment\nmetadata:\n  name: \x7b\x7b Name \x7d\x7d\n"

def deploymentLines : List Yaml.PlainLine :=
  [⟨"apiVersion".toList, "apps/v1".toList, .of_all (by decide) (by decide),
      .of_all (by decide) (by decide), by decide⟩,
    ⟨"kind".toList, "Deployment".toList, .of_all (by decide) (by decide),
      .of_all (by decide) (by decide), by decide⟩]

theorem exists_of_isOk {ε α : Type} {r : Except ε α} (h : r.isOk = true) : ∃ a, r = .ok a := by
  cases r with
  | error e => cases h
  | ok a => exact ⟨a, rfl⟩

theorem plainIdentity_deploymentTemplate :
    Template.PlainIdentity ((sampleTemplate "web").values 0) deploymentTemplate := by
  have hstrict : Template.renderText .strict ((sampleTemplate "web").values 0) deploymentTemplate =
      .ok "apiVersion: apps/v1\nkind: Deployment\nmetadata:\n  name: web-0" := by decide +kernel
  have hlenient : Template.renderText .lenient [] (Template.dropSpans deploymentTemplate) =
      .ok "apiVersion: apps/v1\nkind: Deployment\nmetadata:\n  name: " := by decide +kernel
  refine .headed deploymentLines ⟨⟨'m', by decide, by decide, ?_⟩, by decide, by decide⟩ ?_
  · decide +kernel
  · rintro printed (hp | hp)
    · rw [hstrict] at hp
      cases hp
      have hnames : (Yaml.Document.ofText?
          "apiVersion: apps/v1\nkind: Deployment\nmetadata:\n  name: web-0").map
          Yaml.Document.names = some ["apiVersion", "kind", "metadata"] := by decide +kernel
      exact ⟨Yaml.namedOnce_of_names hnames (by decide), Yaml.namedOnce_of_names hnames (by decide)⟩
    · rw [hlenient] at hp
      cases hp
      have hnames : (Yaml.Document.ofText?
          "apiVersion: apps/v1\nkind: Deployment\nmetadata:\n  name: ").map
          Yaml.Document.names = some ["apiVersion", "kind", "metadata"] := by decide +kernel
      exact ⟨Yaml.namedOnce_of_names hnames (by decide), Yaml.namedOnce_of_names hnames (by decide)⟩

/-! ## The main results -/

/-- A template makes the kind of object that its bare form names, if it says its identity in one
way. For the environments that have the template: a created object is removed by a later delete, and
is the one that the identifier names, exactly when the two kinds are the same. -/
theorem deletes_what_it_creates (hmade : Object.ofTemplate values source = .ok made)
    (hbare : Object.ofBareTemplate source = .ok bare) :
    (Template.PlainIdentity values source → made.resourceType = bare.resourceType) ∧
    ∀ (env : Environment) (o : ObjectTemplate) (i : Nat) (ns : String),
      env.templates o.path = .ok source → o.values i = values →
      (∀ w : World, (w.operate env o .create ns i).1 = none →
        ((w.operate env o .create ns i).2.1.cluster.view (createdKey ns o i made)).isSome = true) ∧
      (∀ w : World, o.objectName i ∉ w.cluster.failingNames →
        (w.cluster.view (createdKey ns o i made)).isSome = true →
        ((w.operate env o .delete ns i).2.1.cluster.view (createdKey ns o i made) = none ↔
          made.resourceType = bare.resourceType) ∧
        (made.resourceType = bare.resourceType → (w.operate env o .delete ns i).1 = none)) ∧
      (∀ g, env.identify o = .ok g →
        (replicaKey (ns, g) i = createdKey ns o i made ↔
          made.resourceType = bare.resourceType)) := by
  refine ⟨fun h => h.resourceType_eq hmade hbare, fun env o i ns hsource hvalues => ?_⟩
  have hmade' : env.object o.path (o.values i) = .ok made := by
    unfold Environment.object
    rw [hsource, hvalues]
    exact hmade
  have hbare' : env.bareObject o.path = .ok bare := by
    unfold Environment.bareObject
    rw [hsource]
    exact hbare
  exact ⟨fun w hok => isSome_create hmade' hok,
    fun w hname hheld => ⟨view_delete_iff hbare' hname hheld, fun hsame =>
      delete_ok hbare' hname (by rwa [(createdKey_eq_iff ns o i).mpr hsame])⟩,
    fun g hg => replicaKey_identify_iff hbare' hg⟩

/-- A deployment is created and deleted again. -/
theorem deletes_what_it_creates_deployment :
    ∃ made bare,
      Object.ofTemplate ((sampleTemplate "web").values 0) deploymentTemplate = .ok made ∧
      Object.ofBareTemplate deploymentTemplate = .ok bare ∧
      Template.PlainIdentity ((sampleTemplate "web").values 0) deploymentTemplate ∧
      made.resourceType = bare.resourceType ∧
      ((createdWorld deploymentTemplate "web").operate (.ofText deploymentTemplate)
        (sampleTemplate "web") .delete "ns" 0).1 = none ∧
      ((createdWorld deploymentTemplate "web").operate (.ofText deploymentTemplate)
        (sampleTemplate "web") .delete "ns" 0).2.1.cluster.view
        (createdKey "ns" (sampleTemplate "web") 0 made) = none := by
  obtain ⟨made, hmade⟩ : ∃ made,
      Object.ofTemplate ((sampleTemplate "web").values 0) deploymentTemplate = .ok made :=
    exists_of_isOk (by decide +kernel)
  obtain ⟨bare, hbare⟩ : ∃ bare, Object.ofBareTemplate deploymentTemplate = .ok bare :=
    exists_of_isOk (by decide +kernel)
  have hcreated : (({} : World).operate (.ofText deploymentTemplate) (sampleTemplate "web") .create
      "ns" 0).1 = none := by decide +kernel
  have hname : (createdWorld deploymentTemplate "web").cluster.failingNames = [] := by
    decide +kernel
  obtain ⟨hsame, hall⟩ := deletes_what_it_creates hmade hbare
  obtain ⟨hcreate, hdelete, -⟩ :=
    hall (.ofText deploymentTemplate) (sampleTemplate "web") 0 "ns" rfl rfl
  have hheld := hcreate {} hcreated
  have heq := hsame plainIdentity_deploymentTemplate
  unfold createdWorld at hname ⊢
  obtain ⟨hremoved, hok⟩ := hdelete _ (by rw [hname]; exact List.not_mem_nil) hheld
  exact ⟨made, bare, hmade, hbare, plainIdentity_deploymentTemplate, heq, hok heq,
    hremoved.mpr heq⟩

def numberedTemplate : String := "kind: A\x7b\x7b Index \x7d\x7d"

/-- An expression in the kind is there when the object is created, and dropped when it is deleted:
the delete looks for another kind, and the object stays. -/
theorem a_created_object_is_not_deleted :
    (Object.ofTemplate ((sampleTemplate "a").values 0) numberedTemplate).map Object.resourceType =
      .ok ⟨"A0", ""⟩ ∧
    (Object.ofBareTemplate numberedTemplate).map Object.resourceType = .ok ⟨"A", ""⟩ ∧
    (Environment.ofText numberedTemplate).identify (sampleTemplate "a") = .ok ⟨"a", "A", ""⟩ ∧
    (createdWorld numberedTemplate "a").cluster.objects.keys = [⟨"ns", "", "A0", "a-0"⟩] ∧
    ((createdWorld numberedTemplate "a").operate (.ofText numberedTemplate) (sampleTemplate "a")
      .delete "ns" 0).1 = some (.delete "ns" "a-0" (.notFound "A" "ns" "a-0")) ∧
    ((createdWorld numberedTemplate "a").operate (.ofText numberedTemplate) (sampleTemplate "a")
      .delete "ns" 0).2.1.cluster.objects.keys = [⟨"ns", "", "A0", "a-0"⟩] := by
  decide +kernel

end ReplicaLoad

-- Metadata fields. The metadata entries of an object that can be set, as a
-- store. What is read from a field is what was set last, or what the object had
-- there from the beginning; fields do not get in each other's way; and nothing
-- else of the object changes. This holds whatever the metadata were, since the
-- first set replaces metadata that are no dictionary, and every later one works
-- in place.
import Mathlib.Data.List.Induction
import ReplicaLoad.Proofs.DictEntries
import ReplicaLoad.Proofs.StoredObjects

namespace ReplicaLoad

/-- A metadata entry that can be set. -/
inductive MetadataField where
  | name
  | ns
  | resourceVersion
  deriving DecidableEq

namespace MetadataField

def key : MetadataField → String
  | name => "name"
  | ns => "namespace"
  | resourceVersion => "resourceVersion"

theorem key_inj {f g : MetadataField} : f.key = g.key ↔ f = g := by
  cases f <;> cases g <;> decide

end MetadataField

/-! ## One set -/

namespace Object

/-- The entry of the metadata under a key. There is none in metadata that are no dictionary. -/
def metadataAt (o : Object) (key : String) : Option Value :=
  (o.fields.get? "metadata").bind (·.field? key)

def get (o : Object) : MetadataField → Option String
  | .name => o.name?
  | .ns => o.namespace?
  | .resourceVersion => o.resourceVersion?

def set (o : Object) (f : MetadataField) (s : String) : Object :=
  match f with
  | .name => o.setName s
  | .ns => o.setNamespace s
  | .resourceVersion => o.setResourceVersion s

theorem get_eq (o : Object) (f : MetadataField) : o.get f = (o.metadataAt f.key).bind Value.text? := by
  cases f <;> rfl

theorem set_eq (o : Object) (f : MetadataField) (s : String) :
    o.set f s = o.setMetadata f.key (.text s) := by
  cases f <;> rfl

theorem metadataAt_eq (o : Object) (key : String) : o.metadataAt key = o.metadataDict.get? key := by
  unfold metadataAt metadataDict Value.field?
  rcases o.fields.get? "metadata" with _ | v
  · rfl
  · cases v <;> rfl

theorem metadataAt_of_dict {o : Object} {metadata : Dict}
    (h : o.fields.get? "metadata" = some (.dict metadata)) (key : String) :
    o.metadataAt key = metadata.get? key := by
  unfold metadataAt
  rw [h]
  rfl

theorem metadataAt_of_no_dict {o : Object}
    (h : ∀ metadata, o.fields.get? "metadata" ≠ some (.dict metadata)) (key : String) :
    o.metadataAt key = none := by
  unfold metadataAt
  rcases hm : o.fields.get? "metadata" with _ | v
  · rfl
  · cases v with
    | dict metadata => exact absurd hm (h metadata)
    | _ => rfl

theorem metadataAt_eq_some_iff {o : Object} {key : String} {v : Value} :
    o.metadataAt key = some v ↔ ∃ metadata : Dict,
      o.fields.get? "metadata" = some (.dict metadata) ∧ metadata.get? key = some v := by
  by_cases hm : ∃ metadata, o.fields.get? "metadata" = some (.dict metadata)
  · obtain ⟨metadata, hm⟩ := hm
    simp [metadataAt_of_dict hm, hm]
  · rw [metadataAt_of_no_dict (not_exists.mp hm)]
    simp [not_exists.mp hm]

/-- A text is read from a field exactly if the metadata are a dictionary that holds it there. -/
theorem get_eq_some_iff {o : Object} {f : MetadataField} {s : String} :
    o.get f = some s ↔ ∃ metadata : Dict, o.fields.get? "metadata" = some (.dict metadata) ∧
      metadata.get? f.key = some (.text s) := by
  rw [get_eq, ← metadataAt_eq_some_iff]
  rcases o.metadataAt f.key with _ | v
  · simp
  · cases v <;> simp [Value.text?]

/-- A set decides its own entry and no other. -/
theorem metadataAt_set (o : Object) (f : MetadataField) (s key : String) :
    (o.set f s).metadataAt key = if f.key = key then some (.text s) else o.metadataAt key := by
  rw [set_eq, metadataAt_eq, metadataDict_setMetadata, Dict.get?_insert, metadataAt_eq]

theorem get_set (o : Object) (f g : MetadataField) (s : String) :
    (o.set f s).get g = if f = g then some s else o.get g := by
  rw [get_eq, metadataAt_set, get_eq]
  simp only [MetadataField.key_inj]
  split
  · rfl
  · rfl

/-- Sets of different fields commute. -/
theorem set_comm (o : Object) {f g : MetadataField} (h : f ≠ g) (s t : String) :
    (o.set f s).set g t = (o.set g t).set f s := by
  have hkey : f.key ≠ g.key := fun he => h (MetadataField.key_inj.mp he)
  have hf := o.metadataDict_setMetadata f.key (.text s)
  have hg := o.metadataDict_setMetadata g.key (.text t)
  unfold metadataDict at hf hg
  simp only [set_eq, setMetadata] at hf hg ⊢
  simp only [hf, hg, Dict.insert_insert, Dict.insert_comm hkey]

/-- Of two texts for one field the later one counts. -/
theorem set_set (o : Object) (f : MetadataField) (s t : String) : (o.set f s).set f t = o.set f t := by
  simp only [set_eq, setMetadata_setMetadata]

theorem get?_fields_set (o : Object) (f : MetadataField) (s : String) {key : String}
    (h : key ≠ "metadata") : (o.set f s).fields.get? key = o.fields.get? key := by
  rw [set_eq, setMetadata, Dict.get?_insert, if_neg h.symm]

theorem others_set (o : Object) (f : MetadataField) (s : String) :
    (o.set f s).fields.filter (·.1 ≠ "metadata") = o.fields.filter (·.1 ≠ "metadata") := by
  rw [set_eq]
  exact Dict.filter_insert _ _ _

/-! ## Sets one after another -/

def setAll (o : Object) (writes : List (MetadataField × String)) : Object :=
  writes.foldl (fun o w => o.set w.1 w.2) o

/-- The last text that a field is set to. -/
def lastText (f : MetadataField) (writes : List (MetadataField × String)) : Option String :=
  (writes.filter (·.1 = f)).getLast?.map (·.2)

theorem setAll_append (o : Object) (writes more : List (MetadataField × String)) :
    o.setAll (writes ++ more) = (o.setAll writes).setAll more :=
  List.foldl_append

theorem lastText_append (f : MetadataField) (writes : List (MetadataField × String))
    (w : MetadataField × String) :
    lastText f (writes ++ [w]) = if w.1 = f then some w.2 else lastText f writes := by
  unfold lastText
  by_cases h : w.1 = f
  · simp [h]
  · simp [h]

theorem lastText_eq_none {f : MetadataField} {writes : List (MetadataField × String)} :
    lastText f writes = none ↔ ∀ w ∈ writes, w.1 ≠ f := by
  simp [lastText]

/-- What no set changes is never changed. -/
theorem view_setAll {α : Type} (view : Object → α) (o : Object)
    (writes : List (MetadataField × String))
    (h : ∀ w ∈ writes, ∀ o : Object, view (o.set w.1 w.2) = view o) :
    view (o.setAll writes) = view o := by
  induction writes generalizing o with
  | nil => rfl
  | cons w rest ih =>
    obtain ⟨hw, hrest⟩ := List.forall_mem_cons.mp h
    exact (ih (o.set w.1 w.2) hrest).trans (hw o)

theorem get_setAll (o : Object) (writes : List (MetadataField × String)) (f : MetadataField) :
    (o.setAll writes).get f = (lastText f writes).or (o.get f) := by
  -- the last set decides, so the list shrinks from its end
  induction writes using List.reverseRecOn with
  | nil => rfl
  | append_singleton writes w ih =>
    have hlast : (o.setAll (writes ++ [w])).get f = if w.1 = f then some w.2 else
        (o.setAll writes).get f := by
      rw [setAll_append]
      exact get_set _ _ _ _
    rw [hlast, lastText_append, ih]
    split
    · rfl
    · rfl

theorem metadataAt_setAll {writes : List (MetadataField × String)} {key : String}
    (h : ∀ w ∈ writes, w.1.key ≠ key) (o : Object) :
    (o.setAll writes).metadataAt key = o.metadataAt key :=
  view_setAll (·.metadataAt key) o writes fun w hw o => by
    rw [metadataAt_set, if_neg (h w hw)]

/-- The last set of a field could as well have been made at the end, and the others left out. -/
theorem setAll_eq_set {f : MetadataField} {s : String} {writes : List (MetadataField × String)}
    (h : lastText f writes = some s) (o : Object) :
    o.setAll writes = (o.setAll (writes.filter (·.1 ≠ f))).set f s := by
  induction writes using List.reverseRecOn generalizing s with
  | nil => cases h
  | append_singleton writes w ih =>
    rw [lastText_append] at h
    rw [setAll_append, List.filter_append]
    by_cases hw : w.1 = f
    · rw [if_pos hw] at h
      obtain rfl := Option.some.inj h
      have hlast : (o.setAll writes).set f w.2 =
          (o.setAll (writes.filter (·.1 ≠ f))).set f w.2 := by
        cases hs : lastText f writes with
        | some t => rw [ih hs, set_set]
        | none =>
          have hall : writes.filter (·.1 ≠ f) = writes :=
            List.filter_eq_self.mpr fun w hw => by simpa using lastText_eq_none.mp hs w hw
          rw [hall]
      simpa [hw, setAll] using hlast
    · rw [if_neg hw] at h
      have hcomm : (o.setAll writes).set w.1 w.2 =
          ((o.setAll (writes.filter (·.1 ≠ f))).set w.1 w.2).set f s := by
        rw [ih h, set_comm _ (Ne.symm hw)]
      simpa [hw, setAll] using hcomm

theorem lastText_filter (f g : MetadataField) (writes : List (MetadataField × String)) :
    lastText g (writes.filter (·.1 ≠ f)) = if g = f then none else lastText g writes := by
  split
  · next h =>
    subst h
    exact lastText_eq_none.mpr fun w hw => by simpa using (List.mem_filter.mp hw).2
  · next h =>
    unfold lastText
    rw [List.filter_filter]
    congr 3
    funext w
    by_cases hw : w.1 = g
    · simp [hw, h]
    · simp [hw]

/-- Only the last text of each field counts, and not the order in which the fields were set. -/
theorem setAll_congr {writes more : List (MetadataField × String)}
    (h : ∀ f, lastText f writes = lastText f more) (o : Object) :
    o.setAll writes = o.setAll more := by
  -- the sets of one field are taken out of both lists at a time
  induction hn : writes.length using Nat.strong_induction_on generalizing writes more with
  | _ n ih =>
    cases writes with
    | nil =>
      have hmore : more = [] := by
        refine List.eq_nil_iff_forall_not_mem.mpr fun w hw => ?_
        exact lastText_eq_none.mp (h w.1).symm w hw rfl
      rw [hmore]
    | cons w rest =>
      obtain ⟨s, hs⟩ : ∃ s, lastText w.1 (w :: rest) = some s := by
        refine Option.ne_none_iff_exists'.mp fun hnone => ?_
        exact lastText_eq_none.mp hnone w List.mem_cons_self rfl
      have hshorter : ((w :: rest).filter (·.1 ≠ w.1)).length < n := by
        have := List.length_filter_le (fun x : MetadataField × String => decide (x.1 ≠ w.1)) rest
        simp only [List.length_cons] at hn
        rw [List.filter_cons_of_neg (by simp)]
        omega
      have hothers : ∀ g, lastText g ((w :: rest).filter (·.1 ≠ w.1)) =
          lastText g (more.filter (·.1 ≠ w.1)) := fun g => by
        rw [lastText_filter, lastText_filter, h g]
      rw [setAll_eq_set hs, setAll_eq_set ((h w.1).symm.trans hs), ih _ hshorter hothers rfl]

/-- Whatever metadata an object has: after any sets each field holds the text that it was set to last,
or else what the metadata held there if they were a dictionary with a text there. The order of sets
of different fields does not count. No other key of the object is touched, so that its kind and API
version stay, and the other entries of the metadata stay if these were a dictionary; there are none
if they were not. -/
theorem last_texts_read_back (o : Object) (writes : List (MetadataField × String)) :
    (∀ f, (o.setAll writes).get f = (lastText f writes).or (o.get f)) ∧
    (∀ f s, o.get f = some s ↔ ∃ metadata : Dict,
      o.fields.get? "metadata" = some (.dict metadata) ∧ metadata.get? f.key = some (.text s)) ∧
    (∀ f g s t, f ≠ g → (o.set f s).set g t = (o.set g t).set f s) ∧
    (∀ more, (∀ f, lastText f writes = lastText f more) → o.setAll writes = o.setAll more) ∧
    (∀ key ≠ "metadata", (o.setAll writes).fields.get? key = o.fields.get? key) ∧
    (o.setAll writes).fields.filter (·.1 ≠ "metadata") = o.fields.filter (·.1 ≠ "metadata") ∧
    (o.setAll writes).kind = o.kind ∧ (o.setAll writes).apiVersion = o.apiVersion ∧
    (o.setAll writes).groupVersionKind = o.groupVersionKind ∧
    ∀ key, (∀ w ∈ writes, w.1.key ≠ key) →
      (∀ metadata : Dict, o.fields.get? "metadata" = some (.dict metadata) →
        (o.setAll writes).metadataAt key = metadata.get? key) ∧
      ((∀ metadata, o.fields.get? "metadata" ≠ some (.dict metadata)) →
        (o.setAll writes).metadataAt key = none) := by
  have hfields : ∀ key ≠ "metadata", (o.setAll writes).fields.get? key = o.fields.get? key :=
    fun key hkey => view_setAll (·.fields.get? key) o writes fun w _ o =>
      o.get?_fields_set w.1 w.2 hkey
  have htop {key : String} (hkey : key ≠ "metadata") :
      (o.setAll writes).topText key = o.topText key := by
    unfold topText
    rw [hfields key hkey]
  have hkind : (o.setAll writes).kind = o.kind := htop (by decide)
  have hversion : (o.setAll writes).apiVersion = o.apiVersion := htop (by decide)
  refine ⟨o.get_setAll writes, fun f s => get_eq_some_iff, fun f g s t h => o.set_comm h s t,
    fun more h => setAll_congr h o, hfields, ?_, hkind, hversion, ?_, fun key hkey => ⟨?_, ?_⟩⟩
  · exact view_setAll (·.fields.filter (·.1 ≠ "metadata")) o writes fun w _ o =>
      o.others_set w.1 w.2
  · unfold groupVersionKind
    rw [hkind, hversion]
  · intro metadata hm
    rw [metadataAt_setAll hkey, metadataAt_of_dict hm]
  · intro hm
    rw [metadataAt_setAll hkey, metadataAt_of_no_dict hm]

/-- An object whose metadata are a text. -/
def unlabelledObject : Object := ⟨[("kind", .text "A"), ("metadata", .text "none")]⟩

/-- An object with a label, and with a name that is no text. -/
def labelledObject : Object :=
  ⟨[("kind", .text "A"), ("metadata", .dict [("labels", .text "x"), ("name", .int 1)])]⟩

def renamings : List (MetadataField × String) := [(.name, "a"), (.ns, "n"), (.name, "b")]

theorem last_texts_read_back_renamings :
    (unlabelledObject.setAll renamings).get .name = some "b" ∧
    (unlabelledObject.setAll renamings).metadataAt "labels" = none ∧
    (labelledObject.setAll renamings).metadataAt "labels" = some (.text "x") ∧
    (labelledObject.setAll renamings).fields.get? "kind" = some (.text "A") ∧
    (labelledObject.set .name "b").set .ns "n" = (labelledObject.set .ns "n").set .name "b" ∧
    labelledObject.setAll renamings = labelledObject.setAll [(.ns, "n"), (.name, "b")] := by
  have hlabels : ∀ w ∈ renamings, w.1.key ≠ "labels" := by decide
  obtain ⟨hget, -, -, -, -, -, -, -, -, hplain⟩ := last_texts_read_back unlabelledObject renamings
  obtain ⟨-, -, hcomm, hlast, htop, -, -, -, -, hlabelled⟩ :=
    last_texts_read_back labelledObject renamings
  refine ⟨hget .name, (hplain "labels" hlabels).2 fun metadata h => ?_,
    (hlabelled "labels" hlabels).1 _ rfl, htop "kind" (by decide), hcomm .name .ns "b" "n" nofun,
    hlast _ fun f => by cases f <;> rfl⟩
  cases Option.some.inj h

end Object

end ReplicaLoad

-- Stored objects. What a write makes of an object. The stamp of a write decides
-- the name, the namespace and the version and nothing else, so that two writes
-- of one object differ in the version alone; and the version that a write
-- stamps is always one that can be recorded.
import ReplicaLoad.Cluster.Basic
import ReplicaLoad.State.Versions

namespace ReplicaLoad

/-! ## Metadata -/

theorem Dict.insert_insert (key : String) (v v' : Value) (d : Dict) :
    Dict.insert key v' (Dict.insert key v d) = Dict.insert key v' d := by
  induction d with
  | nil => simp [Dict.insert]
  | cons e rest ih =>
    obtain ⟨k, u⟩ := e
    by_cases hk : k = key
    · simp [Dict.insert, hk]
    · by_cases hlt : key < k
      · simp [Dict.insert, hk, hlt]
      · simp [Dict.insert, hk, hlt, ih]

namespace Object

/-- The metadata as a dictionary, empty if there is none. -/
def metadataDict (o : Object) : Dict := ((o.fields.get? "metadata").bind Value.dict?).getD []

theorem metadataDict_setMetadata (o : Object) (key : String) (v : Value) :
    (o.setMetadata key v).metadataDict = o.metadataDict.insert key v := by
  simp [metadataDict, setMetadata, Dict.get?_insert, Value.dict?]

theorem metadata?_eq (o : Object) (key : String) :
    o.metadata? key = (o.metadataDict.get? key).bind Value.text? := by
  unfold metadata? metadataDict Value.field?
  rcases o.fields.get? "metadata" with _ | v
  · rfl
  · cases v <;> rfl

/-- A set entry is read back, and no other entry changes. -/
theorem metadata?_setMetadata (o : Object) (key key' : String) (v : Value) :
    (o.setMetadata key v).metadata? key' = if key = key' then v.text? else o.metadata? key' := by
  rw [metadata?_eq, metadataDict_setMetadata, Dict.get?_insert]
  split
  · rfl
  · rw [metadata?_eq]

/-- Of two values for one entry the later one counts. -/
theorem setMetadata_setMetadata (o : Object) (key : String) (v v' : Value) :
    (o.setMetadata key v).setMetadata key v' = o.setMetadata key v' := by
  have h := metadataDict_setMetadata o key v
  unfold metadataDict at h
  unfold setMetadata at h ⊢
  simp only [h, Dict.insert_insert]

/-- Metadata decide neither the kind nor the API version. -/
theorem topText_setMetadata {key' : String} (h : "metadata" ≠ key') (o : Object) (key : String)
    (v : Value) : (o.setMetadata key v).topText key' = o.topText key' := by
  simp [topText, setMetadata, Dict.get?_insert, h]

theorem groupVersionKind_setMetadata (o : Object) (key : String) (v : Value) :
    (o.setMetadata key v).groupVersionKind = o.groupVersionKind := by
  unfold groupVersionKind apiVersion kind
  rw [topText_setMetadata (by decide), topText_setMetadata (by decide)]

def versionless (o : Object) : Object := o.setResourceVersion ""

end Object

/-! ## Stamps -/

theorem resourceVersion?_stamp (version : UInt64) (ns name : String) (o : Object) :
    (Cluster.stamp version ns name o).resourceVersion? = some (toString version) := by
  unfold Cluster.stamp Object.setResourceVersion Object.resourceVersion?
  simp [Object.metadata?_setMetadata, Value.text?]

theorem groupVersionKind_stamp (version : UInt64) (ns name : String) (o : Object) :
    (Cluster.stamp version ns name o).groupVersionKind = o.groupVersionKind := by
  unfold Cluster.stamp Object.setResourceVersion Object.setNamespace Object.setName
  dsimp only
  split
  · simp only [Object.groupVersionKind_setMetadata]
  · simp only [Object.groupVersionKind_setMetadata]

theorem name?_stamp (version : UInt64) (ns name : String) (o : Object) :
    (Cluster.stamp version ns name o).name? = some name := by
  unfold Cluster.stamp Object.setResourceVersion Object.setNamespace Object.setName Object.name?
  dsimp only
  split
  · simp [Object.metadata?_setMetadata, Value.text?]
  · simp [Object.metadata?_setMetadata, Value.text?]

/-- Only an object of a namespace is told its namespace. -/
theorem namespace?_stamp (version : UInt64) (ns name : String) (o : Object) :
    (Cluster.stamp version ns name o).namespace? = if ns = "" then o.namespace? else some ns := by
  unfold Cluster.stamp Object.setResourceVersion Object.setNamespace Object.setName
    Object.namespace?
  dsimp only
  split
  · simp [Object.metadata?_setMetadata]
  · simp [Object.metadata?_setMetadata, Value.text?]

/-- Two writes of one object under one name differ in the version alone. -/
theorem versionless_stamp (version version' : UInt64) (ns name : String) (o : Object) :
    (Cluster.stamp version ns name o).versionless =
      (Cluster.stamp version' ns name o).versionless := by
  unfold Cluster.stamp Object.versionless Object.setResourceVersion
  simp only [Object.setMetadata_setMetadata]

/-! ## Versions as texts -/

namespace Text

/-- Different numbers have different decimal texts. -/
theorem toString_inj {m n : Nat} (h : toString m = toString n) : m = n := by
  have hdigits := congrArg (fun s => Nat.ofDigitChars 10 s.toList 0) h
  simpa using hdigits

theorem le_ofDigitChars (ds : List Char) (acc : Nat) : acc ≤ Nat.ofDigitChars 10 ds acc := by
  induction ds generalizing acc with
  | nil => simp
  | cons c rest ih =>
    rw [Nat.ofDigitChars_cons]
    have := ih (10 * acc + (c.toNat - '0'.toNat))
    omega

/-- Digits whose number fits are read as that number. -/
theorem readWordDigits_of_digits {ds : List Char} {acc : Nat} (hd : ∀ c ∈ ds, c.isDigit = true)
    (h : Nat.ofDigitChars 10 ds acc < wordBound) :
    readWordDigits acc ds = .ok (Nat.ofDigitChars 10 ds acc) := by
  induction ds generalizing acc with
  | nil => simp [readWordDigits]
  | cons c rest ih =>
    rw [Nat.ofDigitChars_cons] at h ⊢
    have hc := hd c (by simp)
    have hlt : 10 * acc + (c.toNat - '0'.toNat) < wordBound :=
      Nat.lt_of_le_of_lt (le_ofDigitChars rest _) h
    unfold readWordDigits
    simp only [hc, if_true, hlt]
    exact ih (fun c' hc' => hd c' (by simp [hc'])) h

/-- The decimal text of a number of 64 bits reads back. -/
theorem readWord_toString (version : UInt64) : readWord (toString version) = .ok version.toNat := by
  have hl : (toString version).toList = Nat.toDigits 10 version.toNat := by
    change (toString version.toNat).toList = _
    simp
  have hd : ∀ c ∈ Nat.toDigits 10 version.toNat, c.isDigit = true :=
    fun c hc => Nat.isDigit_of_mem_toDigits (by decide) (by decide) hc
  have hread : readWordDigits 0 (Nat.toDigits 10 version.toNat) = .ok version.toNat := by
    have hlt : Nat.ofDigitChars 10 (Nat.toDigits 10 version.toNat) 0 < wordBound := by
      simpa using Nat.lt_of_lt_of_eq version.toNat_lt (by decide)
    simpa using readWordDigits_of_digits hd hlt
  unfold readWord
  rw [hl]
  -- a digit comes first, so that neither the empty text nor a sign is met
  rcases hc : Nat.toDigits 10 version.toNat with _ | ⟨c, rest⟩
  · exact absurd hc Nat.toDigits_ne_nil
  · rw [hc] at hread hd
    have hplus : c ≠ '+' := by
      rintro rfl
      simpa using hd '+' (by simp)
    split
    · simp_all
    · simp_all
    · simp_all
    · exact hread

end Text

/-- The version of a write can always be recorded. -/
theorem record_toString (s : VersionStore) (r : ResourceType) (version : UInt64) :
    s.record r (toString version) = .ok (s.put r version.toNat) := by
  simp [VersionStore.record, Text.readWord_toString]

end ReplicaLoad

-- API versions. An API version text stands for a version of the core group, or
-- for a group and a version with a slash between them. Its first slash decides
-- which, so that every text stands for one pair. The pair is written as the
-- text that it was read from unless that begins with a slash; and the text of a
-- pair stands for the pair unless its first slash is another one.
import Mathlib.Data.List.TakeDrop
import Mathlib.Data.List.TakeWhile
import ReplicaLoad.Object.Identity

namespace ReplicaLoad

/-! ## The first separator -/

theorem splitAtFirst_of_notMem {c : Char} {s : String} (h : c ∉ s.toList) :
    splitAtFirst c s = none := by
  have hnil : s.toList.dropWhile (· ≠ c) = [] := by
    rw [List.dropWhile_eq_nil_iff]
    intro x hx
    simpa using ne_of_mem_of_not_mem hx h
  unfold splitAtFirst
  rw [List.span_eq_takeWhile_dropWhile, hnil]

theorem splitAtFirst_append {c : Char} {before after : String} (h : c ∉ before.toList) :
    splitAtFirst c (before ++ String.singleton c ++ after) = some (before, after) := by
  have hall : ∀ x ∈ before.toList, decide (x ≠ c) = true := by
    intro x hx
    simpa using ne_of_mem_of_not_mem hx h
  have hlist : (before ++ String.singleton c ++ after).toList =
      before.toList ++ c :: after.toList := by simp
  unfold splitAtFirst
  rw [List.span_eq_takeWhile_dropWhile, hlist, List.takeWhile_append_of_pos hall,
    List.dropWhile_append_of_pos hall]
  simp

/-! ## What a text stands for -/

namespace ApiVersion

/-- A text without a slash stands for a version of the core group, and another text for what it has
before and after its first slash. -/
inductive StandsFor : String → String → String → Prop
  | core {version : String} (h : '/' ∉ version.toList) : StandsFor version "" version
  | grouped {group version : String} (h : '/' ∉ group.toList) :
      StandsFor (group ++ "/" ++ version) group version

/-- What stands before a version is no part of it. -/
theorem grouped_ne (group version : String) : group ++ "/" ++ version ≠ version := by
  intro h
  have hl := congrArg String.length h
  simp only [String.length_append] at hl
  have hslash : "/".length = 1 := rfl
  omega

namespace StandsFor

variable {text group version : String}

theorem ofApiVersion (h : StandsFor text group version) (kind : String) :
    GroupVersionKind.ofApiVersion text kind = ⟨group, version, kind⟩ := by
  unfold GroupVersionKind.ofApiVersion
  cases h with
  | core h => rw [splitAtFirst_of_notMem h]
  | grouped h =>
    have hslash : "/" = String.singleton '/' := rfl
    rw [hslash, splitAtFirst_append h]

theorem exists_of_text (text : String) : ∃ group version, StandsFor text group version := by
  by_cases h : '/' ∈ text.toList
  · obtain ⟨before, after, htext, hbefore⟩ := List.eq_append_cons_of_mem h
    refine ⟨String.ofList before, String.ofList after, ?_⟩
    have heq : text = String.ofList before ++ "/" ++ String.ofList after := by
      rw [← String.toList_inj, htext]
      simp
    rw [heq]
    exact .grouped (by simpa using hbefore)
  · exact ⟨"", text, .core h⟩

theorem slash_notMem_group (h : StandsFor text group version) : '/' ∉ group.toList := by
  cases h with
  | core h => simp
  | grouped h => exact h

theorem slash_notMem_of_eq (h : StandsFor text group version) (heq : text = version) :
    '/' ∉ version.toList := by
  cases h with
  | core h => exact h
  | grouped h => exact absurd heq (grouped_ne group version)

/-- The group and the version that a text stands for are written as this text, unless it begins with
a slash. -/
theorem apiVersion_eq_iff (h : StandsFor text group version) (kind : String) :
    GroupVersionKind.apiVersion ⟨group, version, kind⟩ = text ↔ text.startsWith "/" = false := by
  unfold GroupVersionKind.apiVersion
  rw [← Bool.not_eq_true, String.startsWith_string_iff]
  cases h with
  | core h =>
    refine iff_of_true (if_pos rfl) ?_
    rintro ⟨rest, hrest⟩
    exact h (by simp [← hrest])
  | grouped h =>
    by_cases hempty : group = ""
    · subst hempty
      refine iff_of_false ?_ ?_
      · exact (grouped_ne "" version).symm
      · simp
    · refine iff_of_true (if_neg hempty) ?_
      obtain ⟨c, cs, hcs⟩ := List.exists_cons_of_ne_nil
        (fun hnil => hempty (String.toList_eq_nil_iff.mp hnil))
      rw [hcs] at h
      have hc : '/' ≠ c := List.ne_of_not_mem_cons h
      simp [hcs, hc]

end StandsFor

theorem standsFor_iff (kind : String) {text group version : String} :
    StandsFor text group version ↔
      GroupVersionKind.ofApiVersion text kind = ⟨group, version, kind⟩ := by
  constructor
  · intro h
    exact h.ofApiVersion kind
  · intro h
    obtain ⟨group', version', h'⟩ := StandsFor.exists_of_text text
    rw [h'.ofApiVersion kind] at h
    cases h
    exact h'

/-- The text of a pair stands for it if no slash comes before the one that is written between them,
and if there is none at all in a version of the core group. -/
theorem standsFor_apiVersion_iff (g : GroupVersionKind) :
    StandsFor g.apiVersion g.group g.version ↔
      (g.group = "" ∧ '/' ∉ g.version.toList) ∨ (g.group ≠ "" ∧ '/' ∉ g.group.toList) := by
  obtain ⟨group, version, kind⟩ := g
  unfold GroupVersionKind.apiVersion
  by_cases hempty : group = ""
  · subst hempty
    rw [if_pos rfl]
    constructor
    · intro h
      exact Or.inl ⟨rfl, h.slash_notMem_of_eq rfl⟩
    · rintro (⟨-, h⟩ | ⟨h, -⟩)
      · exact .core h
      · exact absurd rfl h
  · rw [if_neg hempty]
    constructor
    · intro h
      exact Or.inr ⟨hempty, h.slash_notMem_group⟩
    · rintro (⟨h, -⟩ | ⟨-, h⟩)
      · exact absurd h hempty
      · exact .grouped h

end ApiVersion

/-- Reading an API version text and writing what was read gives the text back exactly if it does not
begin with a slash. Writing a group and a version and reading the text gives them back exactly if
the group is the core group and the version has no slash, or if it is another group without a
slash. -/
theorem api_versions_read_back :
    (∀ text kind : String,
      (GroupVersionKind.ofApiVersion text kind).apiVersion = text ↔
        text.startsWith "/" = false) ∧
    ∀ g : GroupVersionKind, GroupVersionKind.ofApiVersion g.apiVersion g.kind = g ↔
      (g.group = "" ∧ '/' ∉ g.version.toList) ∨ (g.group ≠ "" ∧ '/' ∉ g.group.toList) := by
  constructor
  · intro text kind
    obtain ⟨group, version, h⟩ := ApiVersion.StandsFor.exists_of_text text
    rw [h.ofApiVersion kind]
    exact h.apiVersion_eq_iff kind
  · intro g
    exact (ApiVersion.standsFor_iff g.kind).symm.trans (ApiVersion.standsFor_apiVersion_iff g)

end ReplicaLoad

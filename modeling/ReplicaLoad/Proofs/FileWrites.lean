-- Writes to a file tree. A path leads to one place, whatever the tree holds;
-- the tree only decides whether the way there is open. A write decides its own
-- place and no other, and keeps every way open, so that a text stays readable
-- under its path until the next write to the same place.
import ReplicaLoad.FileTree

namespace ReplicaLoad.FileTree

/-! ## Where a path leads -/

/-- Where the names on a way lead if every folder on it is there. -/
def follow (place : List String) : List String → List String
  | [] => place
  | s :: rest =>
    if s = "" || s = "." then follow place rest
    else if s = ".." then follow (parent place) rest
    else follow (place ++ [s]) rest

/-- Where a path leads if every folder on its way is there. -/
def destination (path : String) : List String := follow (route path).1 (route path).2

/-- A name that stands for an entry of a folder, and not for a step back or on the spot. -/
structure IsEntryName (name : String) : Prop where
  ne_empty : name ≠ ""
  ne_here : name ≠ "."
  ne_back : name ≠ ".."
  isName : isName name = true

/-- Where one name on a way leads from a folder. -/
inductive Leads (t : FileTree) (place : List String) : String → List String → Prop where
  | here {s : String} (h : s = "" ∨ s = ".") : Leads t place s place
  | back : Leads t place ".." (parent place)
  | entry {s : String} (h : IsEntryName s) (he : (t.entry? (place ++ [s])).isSome = true) :
    Leads t place s (place ++ [s])

variable {t t' : FileTree} {place place' names names' : List String} {name path text : String}

theorem follow_append (place names names' : List String) :
    follow place (names ++ names') = follow (follow place names) names' := by
  induction names generalizing place with
  | nil => rfl
  | cons s rest ih => simp only [List.cons_append, follow, apply_ite (follow · names'), ih]

theorem follow_name (place : List String) (h : IsEntryName name) :
    follow place [name] = place ++ [name] := by
  simp [follow, h.ne_empty, h.ne_here, h.ne_back]

theorem Leads.follow (h : t.Leads place name place') (rest : List String) :
    follow place (name :: rest) = follow place' rest := by
  cases h with
  | here h => simp [FileTree.follow, h]
  | back => simp [FileTree.follow]
  | entry h he => simp [FileTree.follow, h.ne_empty, h.ne_here, h.ne_back]

/-- A walk goes on from a folder only, to where the next name leads. -/
theorem walk_cons {s : String} :
    t.walk place (s :: names) = .ok place' ↔
      t.entry? place = some .folder ∧ ∃ next, t.Leads place s next ∧
        t.walk next names = .ok place' := by
  constructor
  · intro h
    simp only [walk] at h
    split at h
    · cases h
    next hfolder =>
    refine ⟨by simpa using hfolder, ?_⟩
    split at h
    · next hs => exact ⟨place, .here (by simpa using hs), h⟩
    next hs =>
    split at h
    · next hb => exact ⟨parent place, hb ▸ .back, h⟩
    next hb =>
    split at h
    · cases h
    next hn =>
    split at h
    · next he =>
      simp only [Bool.or_eq_true, decide_eq_true_eq, not_or] at hs
      exact ⟨place ++ [s], .entry ⟨hs.1, hs.2, hb, by simpa using hn⟩ he, h⟩
    · cases h
  · rintro ⟨hfolder, next, hleads, h⟩
    simp only [walk, hfolder, ne_eq, not_true_eq_false, if_false]
    cases hleads with
    | here hs => simpa [hs] using h
    | back => simpa using h
    | entry hs he => simpa [hs.ne_empty, hs.ne_here, hs.ne_back, hs.isName, he] using h

/-- A walk that does not fail ends where its names lead. -/
theorem eq_follow_of_walk (h : t.walk place names = .ok place') : place' = follow place names := by
  induction names generalizing place with
  | nil => exact (Except.ok.inj h).symm
  | cons s rest ih =>
    obtain ⟨-, next, hleads, h⟩ := walk_cons.mp h
    rw [hleads.follow]
    exact ih h

theorem walk_append (h : t.walk place names = .ok place') {last : List String}
    (h' : t.walk place' names' = .ok last) : t.walk place (names ++ names') = .ok last := by
  induction names generalizing place with
  | nil => rwa [List.nil_append, Except.ok.inj h]
  | cons s rest ih =>
    obtain ⟨hfolder, next, hleads, h⟩ := walk_cons.mp h
    exact walk_cons.mpr ⟨hfolder, next, hleads, ih h⟩

/-! ## Trees that only gain files -/

/-- Every way that is open in one tree is open in another. -/
structure Grows (t t' : FileTree) : Prop where
  folder : ∀ place, t.entry? place = some .folder → t'.entry? place = some .folder
  isSome : ∀ place, (t.entry? place).isSome = true → (t'.entry? place).isSome = true

theorem Grows.refl (t : FileTree) : t.Grows t := ⟨fun _ => id, fun _ => id⟩

theorem Grows.trans {t'' : FileTree} (h : t.Grows t') (h' : t'.Grows t'') : t.Grows t'' :=
  ⟨fun p hp => h'.folder p (h.folder p hp), fun p hp => h'.isSome p (h.isSome p hp)⟩

theorem Leads.grows (h : t.Leads place name place') (hg : t.Grows t') :
    t'.Leads place name place' := by
  cases h with
  | here h => exact .here h
  | back => exact .back
  | entry h he => exact .entry h (hg.isSome _ he)

theorem Grows.walk (hg : t.Grows t') (h : t.walk place names = .ok place') :
    t'.walk place names = .ok place' := by
  induction names generalizing place with
  | nil => exact h
  | cons s rest ih =>
    obtain ⟨hfolder, next, hleads, h⟩ := walk_cons.mp h
    exact walk_cons.mpr ⟨hg.folder _ hfolder, next, hleads.grows hg, ih h⟩

/-! ## A write -/

/-- The way of a path is open up to the folder `place`, in which its last name is `name`. -/
structure Opens (t : FileTree) (path : String) (place : List String) (name : String) : Prop where
  route : (route path).2 = (route path).2.dropLast ++ [name]
  entryName : IsEntryName name
  walk : t.walk (FileTree.route path).1 (FileTree.route path).2.dropLast = .ok place
  folder : t.entry? place = some .folder

theorem Opens.destination (h : t.Opens path place name) :
    destination path = place ++ [name] := by
  rw [FileTree.destination, h.route, follow_append, ← eq_follow_of_walk h.walk,
    follow_name _ h.entryName]

theorem Opens.grows (h : t.Opens path place name) (hg : t.Grows t') : t'.Opens path place name :=
  ⟨h.route, h.entryName, hg.walk h.walk, hg.folder _ h.folder⟩

/-- An open path is found once something is at its place. -/
theorem Opens.find (h : t.Opens path place name)
    (he : (t.entry? (FileTree.destination path)).isSome = true) :
    t.find path = .ok (FileTree.destination path) := by
  have hpath : path ≠ "" := by
    rintro rfl
    have hroute := h.route
    simp [FileTree.route, splitSlashes] at hroute
    exact h.entryName.ne_empty hroute
  rw [FileTree.find, if_neg hpath, h.route]
  rw [h.destination] at he ⊢
  exact walk_append h.walk (walk_cons.mpr ⟨h.folder, _, .entry h.entryName he, rfl⟩)

theorem write_ok (h : t.write path text = .ok t') :
    (∃ place name, t.Opens path place name) ∧ t.entry? (destination path) ≠ some .folder ∧
      t' = ⟨t.entries.put (destination path) (.file (some text))⟩ := by
  unfold write at h
  simp only at h
  split at h
  · cases h
  next hname =>
  simp only [Bool.or_eq_true, decide_eq_true_eq, Bool.not_eq_true', not_or,
    Bool.not_eq_false] at hname
  split at h
  · cases h
  next place hwalk =>
  split at h
  · cases h
  next hplace =>
  simp only [ne_eq, Bool.or_eq_true, decide_eq_true_eq, not_or, Decidable.not_not] at hplace
  -- a path without a name would have failed the first check
  have hne : (route path).2 ≠ [] := by
    intro hnil
    rw [hnil] at hname
    exact hname.1.1.1 rfl
  have hopens : t.Opens path place ((route path).2.getLastD "") := by
    refine ⟨?_, ⟨hname.1.1.1, hname.1.1.2, hname.1.2, hname.2⟩, hwalk, hplace.1⟩
    rw [List.getLastD_eq_getLast?, List.getLast?_eq_some_getLast hne, Option.getD_some,
      List.dropLast_concat_getLast hne]
  rw [hopens.destination]
  exact ⟨⟨place, _, hopens⟩, hplace.2, (Except.ok.inj h).symm⟩

/-- Put a file where no folder is: nothing else changes. -/
theorem entry?_put {e : FileEntry} (h : t.entry? place ≠ some .folder) (p : List String) :
    FileTree.entry? ⟨t.entries.put place e⟩ p = if place = p then some e else t.entry? p := by
  unfold entry? at h ⊢
  split
  · -- a place above the tree is a folder, so nothing has been put there
    next hp =>
    rw [if_neg]
    rintro rfl
    exact h (if_pos hp)
  · exact Table.get?_put _ _ _ _

/-- A write decides its own place and no other. -/
theorem entry?_write (h : t.write path text = .ok t') (p : List String) :
    t'.entry? p = if destination path = p then some (.file (some text)) else t.entry? p := by
  obtain ⟨-, hfile, rfl⟩ := write_ok h
  exact entry?_put hfile p

theorem grows_of_write (h : t.write path text = .ok t') : t.Grows t' := by
  obtain ⟨-, hfile, -⟩ := write_ok h
  constructor
  · intro p hp
    rw [entry?_write h, if_neg, hp]
    rintro rfl
    exact hfile hp
  · intro p hp
    rw [entry?_write h]
    split
    · rfl
    · exact hp

/-- The path of a write leads to its place in every later tree that has only gained files. -/
theorem find_of_write (h : t.write path text = .ok t') {later : FileTree} (hg : t'.Grows later) :
    later.find path = .ok (destination path) := by
  obtain ⟨⟨place, name, hopens⟩, -⟩ := write_ok h
  refine (hopens.grows ((grows_of_write h).trans hg)).find (hg.isSome _ ?_)
  rw [entry?_write h, if_pos rfl]
  rfl

theorem read_eq_ok {s : String} (h : t.find path = .ok place)
    (he : t.entry? place = some (.file (some s))) : t.read path = .ok s := by
  simp only [read, h, he]

/-! ## Files of one folder -/

theorem splitSlashes_of_notMem {cs : List Char} (h : '/' ∉ cs) (start : List Char) :
    splitSlashes start cs = [String.ofList (start.reverse ++ cs)] := by
  induction cs generalizing start with
  | nil => simp [splitSlashes]
  | cons c rest ih =>
    obtain ⟨hc, hrest⟩ := List.ne_and_not_mem_of_not_mem_cons h
    rw [splitSlashes, if_neg (Ne.symm hc), ih hrest]
    simp

theorem splitSlashes_append {file : List Char} (h : '/' ∉ file) (start cs : List Char) :
    splitSlashes start (cs ++ '/' :: file) = splitSlashes start cs ++ [String.ofList file] := by
  induction cs generalizing start with
  | nil => simp [splitSlashes, splitSlashes_of_notMem h]
  | cons c rest ih =>
    simp only [List.cons_append, splitSlashes]
    split
    · rw [ih, List.cons_append]
    · exact ih _

theorem startsWith_slash {s : String} : s.startsWith "/" = (s.toList.head? == some '/') := by
  rw [Bool.eq_iff_iff, String.startsWith_string_iff, beq_iff_eq]
  cases s.toList <;> simp [eq_comm]

/-- The ways of the files in a folder differ in their last names only. -/
theorem route_join (folder : String) :
    ∃ start names, ∀ file : String, '/' ∉ file.toList →
      route (join folder file) = (start, names ++ [file]) := by
  have hfile {file : String} (h : '/' ∉ file.toList) : file.startsWith "/" = false := by
    rw [startsWith_slash]
    cases hl : file.toList with
    | nil => rfl
    | cons c rest =>
      rw [hl] at h
      simpa using (List.ne_of_not_mem_cons h).symm
  by_cases hempty : folder = ""
  · refine ⟨[], [], fun file h => ?_⟩
    simp [join, route, hfile h, hempty, splitSlashes_of_notMem h]
  -- whether the way is absolute depends on the folder alone
  have hstart (s : String) : (folder ++ s).startsWith "/" = folder.startsWith "/" := by
    obtain ⟨c, rest, hl⟩ := List.exists_cons_of_ne_nil
      (fun hnil => hempty (String.toList_eq_nil_iff.mp hnil))
    rw [startsWith_slash, startsWith_slash, String.toList_append, hl]
    rfl
  cases hslash : folder.endsWith "/" with
  | true =>
    obtain ⟨cs, hcs⟩ : "/".toList <:+ folder.toList := by
      rwa [String.endsWith_eq_endsWith_toSlice, String.Slice.endsWith_string_iff,
        String.copy_toSlice] at hslash
    refine ⟨if folder.startsWith "/" then ["/"] else [], splitSlashes [] cs, fun file h => ?_⟩
    rw [join, if_neg (by simp [hfile h, hempty]), if_pos hslash, route, hstart, String.toList_append,
      ← hcs, List.append_assoc]
    exact congrArg _ ((splitSlashes_append h [] cs).trans (by rw [String.ofList_toList]))
  | false =>
    refine ⟨if folder.startsWith "/" then ["/"] else [], splitSlashes [] folder.toList,
      fun file h => ?_⟩
    rw [join, if_neg (by simp [hfile h, hempty]), if_neg (by simp [hslash]), route,
      String.append_assoc, hstart, String.toList_append, String.toList_append]
    exact congrArg _ ((splitSlashes_append h [] folder.toList).trans (by rw [String.ofList_toList]))

/-- What is written in a folder has a name that stands for an entry. -/
theorem isEntryName_of_write {folder file : String} (hfile : '/' ∉ file.toList)
    (h : t.write (join folder file) text = .ok t') : IsEntryName file := by
  obtain ⟨start, names, hroute⟩ := route_join folder
  obtain ⟨⟨place, name, hopens⟩, -⟩ := write_ok h
  have hlast := hopens.route
  rw [hroute file hfile] at hlast
  have hname : file = name := by simpa using congrArg List.getLast? hlast
  exact hname ▸ hopens.entryName

/-- Two names in a folder lead to one place only when they are one name. -/
theorem destination_join_inj {folder a b : String} (ha : IsEntryName a) (hb : IsEntryName b)
    (ha' : '/' ∉ a.toList) (hb' : '/' ∉ b.toList) :
    destination (join folder a) = destination (join folder b) ↔ a = b := by
  obtain ⟨start, names, hroute⟩ := route_join folder
  simp only [destination, hroute a ha', hroute b hb', follow_append, follow_name _ ha,
    follow_name _ hb]
  simp

end ReplicaLoad.FileTree

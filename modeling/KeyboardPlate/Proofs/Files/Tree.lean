import KeyboardPlate.Files.Tree
import KeyboardPlate.Proofs.Except
import Mathlib.Data.List.Basic

/-!
# Requests to a tree of files

A path leads through folders, so it leads to the same place in every tree that has at least those folders.
What a request does to the tree is one new entry where the path leads.
-/

set_option autoImplicit false

namespace KeyboardPlate

namespace FileTree

variable {t t' u : FileTree} {r r' route : Route} {entry : FileEntry} {path text : String}

/-! ## Entries -/

theorem lookup_filter_ne (l : List (Route × FileEntry)) (h : r ≠ route) :
    (l.filter fun e => e.1 != route).lookup r = l.lookup r := by
  induction l with
  | nil => rfl
  | cons e l ih =>
    obtain ⟨key, value⟩ := e
    by_cases hkey : key = route
    · have hr : (r == key) = false := by simpa [hkey] using h
      simp [hkey, ih, List.lookup_cons, hkey ▸ hr]
    · simp only [List.filter_cons, bne_iff_ne, ne_eq, hkey, not_false_eq_true, if_true, List.lookup_cons, ih]

/-- The top of the tree is a folder, so a place that is none can get an entry. -/
theorem entry_insert (h : t.entry? route ≠ some .folder) (r : Route) :
    entry? (t.insert route entry) r = if r = route then some entry else t.entry? r := by
  have htop : route.isTop = false := by
    rw [Bool.eq_false_iff]
    intro htop
    exact h (if_pos htop)
  unfold entry? insert
  by_cases hr : r = route
  · subst hr
    simp [htop]
  · have hbeq : (r == route) = false := by simpa using hr
    simp only [List.lookup_cons, hbeq, lookup_filter_ne _ hr, if_neg hr]

/-! ## Paths -/

/-- The tree has all folders of another one. -/
def Extends (t t' : FileTree) : Prop := ∀ r, t.entry? r = some .folder → t'.entry? r = some .folder

theorem Extends.trans (h : t.Extends t') (h' : t'.Extends u) : t.Extends u := fun r hr => h' r (h r hr)

theorem step_folder {name : String} (h : t.step r name = .ok r') : t.entry? r = some .folder := by
  unfold step at h
  split at h
  · cases h
  · cases h
  · assumption

theorem Extends.step (h : t.Extends t') {name : String} (hstep : t.step r name = .ok r') :
    t'.step r name = .ok r' := by
  have hfolder := step_folder hstep
  unfold FileTree.step at hstep ⊢
  rw [hfolder] at hstep
  rw [h r hfolder]
  exact hstep

theorem Extends.steps (h : t.Extends t') {names : List String} (hsteps : names.foldlM t.step r = .ok r') :
    names.foldlM t'.step r = .ok r' := by
  induction names generalizing r with
  | nil => exact hsteps
  | cons name names ih =>
    obtain ⟨next, hstep, hrest⟩ := Except.bind_eq_ok_iff.mp hsteps
    exact Except.bind_eq_ok_iff.mpr ⟨next, h.step hstep, ih hrest⟩

/-- A path leads to the same place once there are more folders. -/
theorem Extends.walk (h : t.Extends t') (hwalk : t.walk path = .ok r) : t'.walk path = .ok r := by
  unfold FileTree.walk at hwalk ⊢
  split at hwalk
  · cases hwalk
  · rename_i hpath
    rw [if_neg hpath]
    exact h.steps hwalk

/-- Names that say nothing lead from a folder to itself. -/
theorem steps_replicate (h : t.entry? r = some .folder) (n : Nat) :
    (List.replicate n "").foldlM t.step r = .ok r := by
  induction n with
  | zero => rfl
  | succ n ih =>
    have hstep : t.step r "" = .ok r := by
      unfold step
      rw [h]
      rfl
    rw [List.replicate_succ, List.foldlM_cons, hstep]
    exact ih

end FileTree

namespace Files

theorem splitChars_ne_nil (cs : List Char) : splitChars cs ≠ [] := by
  cases cs with
  | nil => simp [splitChars]
  | cons c cs =>
    rw [splitChars]
    split
    · simp
    · split
      · simp
      · simp

theorem splitChars_append (cs ds : List Char) :
    splitChars (cs ++ '/' :: ds) = splitChars cs ++ splitChars ds := by
  induction cs with
  | nil => rfl
  | cons c cs ih =>
    rw [List.cons_append, splitChars, splitChars, ih]
    split
    · rfl
    · obtain ⟨part, parts, hparts⟩ := List.exists_cons_of_ne_nil (splitChars_ne_nil cs)
      rw [hparts]
      rfl

theorem splitChars_plain {cs : List Char} (h : '/' ∉ cs) : splitChars cs = [cs] := by
  induction cs with
  | nil => rfl
  | cons c cs ih =>
    rw [List.mem_cons, not_or] at h
    rw [splitChars, if_neg (Ne.symm h.1), ih h.2]

theorem splitChars_slashes (cs : List Char) (n : Nat) :
    splitChars (cs ++ List.replicate n '/') = splitChars cs ++ List.replicate n [] := by
  induction n generalizing cs with
  | zero => simp
  | succ n ih =>
    have hslashes : splitChars (List.replicate n '/') = [[]] ++ List.replicate n [] := ih []
    rw [List.replicate_succ, splitChars_append, hslashes]
    rfl

/-- A name that is one part of a path, and not one of those that lead nowhere else. -/
structure IsPlain (name : String) : Prop where
  oneName : '/' ∉ name.toList
  leads : name ≠ "" ∧ name ≠ "." ∧ name ≠ ".."

theorem parts_join_slash {folder name : String} {cs : List Char} (hfolder : folder.toList = cs ++ ['/'])
    (hname : IsPlain name) : parts (folder ++ name) = (splitChars cs).map String.ofList ++ [name] := by
  have hchars : (folder ++ name).toList = cs ++ '/' :: name.toList := by simp [hfolder]
  rw [parts, hchars, splitChars_append, splitChars_plain hname.oneName]
  simp

theorem parts_join_name (folder : String) {name : String} (hname : IsPlain name) :
    parts (folder ++ "/" ++ name) = parts folder ++ [name] := by
  have hchars : (folder ++ "/" ++ name).toList = folder.toList ++ '/' :: name.toList := by simp
  rw [parts, hchars, splitChars_append, splitChars_plain hname.oneName]
  simp [parts]

/-- A name in a folder stands behind names that depend on the folder alone. -/
theorem exists_parts_join (folder : String) : ∃ names : List String, ∀ name, IsPlain name →
    parts (join folder name) = names ++ [name] ∧ isAbsolute (join folder name) = isAbsolute folder := by
  by_cases hempty : folder = ""
  · subst hempty
    refine ⟨[], fun name hname => ?_⟩
    have hjoin : join "" name = name := by simp [join]
    have habsolute : name.toList.head? ≠ some '/' := fun h => hname.oneName (List.mem_of_mem_head? h)
    rw [hjoin, parts, splitChars_plain hname.oneName]
    refine ⟨by simp, ?_⟩
    simpa [isAbsolute] using habsolute
  have hempty' : folder.isEmpty = false := by simpa using hempty
  have hchars : folder.toList ≠ [] := by simpa using hempty
  obtain ⟨c, rest, hcons⟩ := List.exists_cons_of_ne_nil hchars
  by_cases hslash : folder.toList.getLast? = some '/'
  · obtain ⟨cs, hcs⟩ := List.getLast?_eq_some_iff.mp hslash
    refine ⟨(splitChars cs).map String.ofList, fun name hname => ?_⟩
    have hjoin : join folder name = folder ++ name := by simp [join, hslash]
    rw [hjoin]
    refine ⟨parts_join_slash hcs hname, ?_⟩
    simp [isAbsolute, hcons]
  · refine ⟨parts folder, fun name hname => ?_⟩
    have hjoin : join folder name = folder ++ "/" ++ name := by simp [join, hslash, hempty']
    rw [hjoin]
    refine ⟨parts_join_name folder hname, ?_⟩
    simp [isAbsolute, hcons]

end Files

namespace FileTree

variable {t t' u : FileTree} {r r' route : Route} {entry : FileEntry} {path text folder : String}

theorem step_plain {name : String} (hname : Files.IsPlain name) (h : t.entry? r = some .folder) :
    t.step r name = .ok (r ++ [name]) := by
  obtain ⟨hempty, hdot, hdots⟩ := hname.leads
  unfold step
  rw [h]
  simp [hempty, hdot, hdots]

/-- A name in a folder leads one step on from where the folder is. -/
theorem exists_walk_join (t : FileTree) (folder : String) : ∃ base : Except SystemError Route,
    ∀ name, Files.IsPlain name → ∀ r, t.walk (Files.join folder name) = .ok r →
      ∃ b, base = .ok b ∧ r = b ++ [name] := by
  obtain ⟨names, hnames⟩ := Files.exists_parts_join folder
  refine ⟨names.foldlM t.step (if Files.isAbsolute folder then ["/"] else []), fun name hname r hr => ?_⟩
  obtain ⟨hparts, habsolute⟩ := hnames name hname
  unfold walk at hr
  split at hr
  · cases hr
  · rw [hparts, habsolute, List.foldlM_append] at hr
    obtain ⟨b, hb, hr⟩ := Except.bind_eq_ok_iff.mp hr
    obtain ⟨r', hstep, hr⟩ := Except.bind_eq_ok_iff.mp hr
    cases hr
    rw [step_plain hname (step_folder hstep)] at hstep
    cases hstep
    exact ⟨b, hb, rfl⟩

/-- Two names in a folder never lead to the same place. -/
theorem eq_of_walk_join {name name' : String} (hname : Files.IsPlain name) (hname' : Files.IsPlain name')
    (h : t.walk (Files.join folder name) = .ok r) (h' : t.walk (Files.join folder name') = .ok r) :
    name = name' := by
  obtain ⟨base, hbase⟩ := exists_walk_join t folder
  obtain ⟨b, hb, hr⟩ := hbase name hname r h
  obtain ⟨b', hb', hr'⟩ := hbase name' hname' r h'
  rw [hb] at hb'
  cases hb'
  simpa [hr] using hr'

/-! ## Requests -/

/-- A file is written where its path leads, to a place that is no folder. -/
theorem exists_of_write (h : t.write path text = .ok t') :
    ∃ route, t.walk path = .ok route ∧ t.entry? route ≠ some .folder ∧ t' = t.insert route (.file text) := by
  obtain ⟨route, hwalk, h⟩ := Except.bind_eq_ok_iff.mp h
  refine ⟨route, hwalk, ?_⟩
  split at h
  · cases h
  · rename_i hentry
    cases h
    exact ⟨hentry, rfl⟩

theorem extends_insert_folder (h : t.entry? route = none) : t.Extends (t.insert route .folder) := by
  intro r hr
  have hroute : t.entry? route ≠ some .folder := by simp [h]
  rw [entry_insert hroute]
  split
  · rfl
  · exact hr

/-- Slashes behind a path do not change where it leads, if that is a folder. -/
theorem walk_slashes {trimmed : String} {n : Nat} (hne : trimmed ≠ "")
    (hpath : path.toList = trimmed.toList ++ List.replicate n '/') (hwalk : t.walk trimmed = .ok r)
    (hfolder : t.entry? r = some .folder) : t.walk path = .ok r := by
  have hchars : trimmed.toList ≠ [] := by simpa using hne
  obtain ⟨c, rest, hcons⟩ := List.exists_cons_of_ne_nil hchars
  have hne' : path ≠ "" := by
    rintro rfl
    simp [hcons] at hpath
  have habsolute : Files.isAbsolute path = Files.isAbsolute trimmed := by
    simp [Files.isAbsolute, hpath, hcons]
  have hparts : Files.parts path = Files.parts trimmed ++ List.replicate n "" := by
    rw [Files.parts, hpath, Files.splitChars_slashes, List.map_append, List.map_replicate]
    rfl
  unfold walk at hwalk ⊢
  rw [if_neg (by simpa using hne)] at hwalk
  rw [if_neg (by simpa using hne'), hparts, habsolute, List.foldlM_append, hwalk]
  exact steps_replicate hfolder n

theorem exists_slashes (cs : List Char) :
    ∃ n, cs = (cs.reverse.dropWhile (· == '/')).reverse ++ List.replicate n '/' := by
  have hslashes : cs.reverse.takeWhile (· == '/') = List.replicate (cs.reverse.takeWhile (· == '/')).length '/' :=
    List.eq_replicate_of_mem fun c hc => by simpa using List.all_eq_true.mp List.all_takeWhile c hc
  refine ⟨(cs.reverse.takeWhile (· == '/')).length, ?_⟩
  calc cs = (cs.reverse.takeWhile (· == '/') ++ cs.reverse.dropWhile (· == '/')).reverse := by
        rw [List.takeWhile_append_dropWhile, List.reverse_reverse]
    _ = _ := by rw [List.reverse_append, hslashes, List.reverse_replicate, List.length_replicate]

/-- A folder is made where nothing was, and its path leads there afterwards. -/
theorem exists_of_createFolder (h : t.createFolder path = .ok t') :
    ∃ route, t.entry? route = none ∧ t' = t.insert route .folder ∧ t'.walk path = .ok route := by
  obtain ⟨route, hwalk, h⟩ := Except.bind_eq_ok_iff.mp h
  split at h
  · cases h
  rename_i hnone
  split at h
  · cases h
  cases h
  refine ⟨route, hnone, rfl, ?_⟩
  have hroute : t.entry? route ≠ some .folder := by simp [hnone]
  have hfolder : entry? (t.insert route .folder) route = some .folder := by
    rw [entry_insert hroute, if_pos rfl]
  have hwalk' := (extends_insert_folder hnone).walk hwalk
  split at hwalk'
  · exact hwalk'
  · rename_i htrimmed
    obtain ⟨n, hn⟩ := exists_slashes path.toList
    exact walk_slashes (by simpa using htrimmed) (by simpa using hn) hwalk' hfolder

/-! ## Folders on the way to a path -/

/-- Nothing but folders was added to the tree, and a path of the list leads to each of them. -/
def FoldersAdded (paths : List String) (t t' : FileTree) : Prop := ∀ r, t'.entry? r = t.entry? r ∨
  t.entry? r = none ∧ t'.entry? r = some .folder ∧ ∃ path ∈ paths, t'.walk path = .ok r

variable {paths : List String}

theorem FoldersAdded.refl (t : FileTree) : FoldersAdded paths t t := fun _ => .inl rfl

theorem FoldersAdded.extends (h : FoldersAdded paths t t') : t.Extends t' := by
  intro r hr
  rcases h r with hsame | ⟨hnone, -⟩
  · rw [hsame, hr]
  · rw [hr] at hnone
    cases hnone

theorem FoldersAdded.trans (h : FoldersAdded paths t t') (h' : FoldersAdded paths t' u) :
    FoldersAdded paths t u := by
  intro r
  rcases h' r with hsame' | ⟨hnone', hfolder', hreached'⟩
  · rcases h r with hsame | ⟨hnone, hfolder, path, hpath, hwalk⟩
    · exact .inl (hsame'.trans hsame)
    · exact .inr ⟨hnone, hsame'.trans hfolder, path, hpath, h'.extends.walk hwalk⟩
  · rcases h r with hsame | ⟨-, hfolder, -⟩
    · exact .inr ⟨hsame.symm.trans hnone', hfolder', hreached'⟩
    · rw [hfolder] at hnone'
      cases hnone'

theorem FoldersAdded.mono {more : List String} (hsub : paths ⊆ more) (h : FoldersAdded paths t t') :
    FoldersAdded more t t' := by
  intro r
  rcases h r with hsame | ⟨hnone, hfolder, path, hpath, hwalk⟩
  · exact .inl hsame
  · exact .inr ⟨hnone, hfolder, path, hsub hpath, hwalk⟩

/-- No file is added, changed or removed. -/
theorem FoldersAdded.file_iff (h : FoldersAdded paths t t') (r : Route) (text : String) :
    t'.entry? r = some (.file text) ↔ t.entry? r = some (.file text) := by
  rcases h r with hsame | ⟨hnone, hfolder, -⟩
  · rw [hsame]
  · simp [hnone, hfolder]

theorem foldersAdded_createFolder (h : t.createFolder path = .ok t') : FoldersAdded [path] t t' := by
  obtain ⟨route, hnone, rfl, hwalk⟩ := exists_of_createFolder h
  have hroute : t.entry? route ≠ some .folder := by simp [hnone]
  intro r
  rw [entry_insert hroute]
  by_cases hr : r = route
  · subst hr
    exact .inr ⟨hnone, if_pos rfl, path, by simp, hwalk⟩
  · exact .inl (if_neg hr)

theorem attempt_of_ok (f : FileTree → Except SystemError FileTree) (h : f t = .ok t') :
    attempt f t = (.ok (), t') := by
  rw [attempt, h]

theorem attempt_of_error (f : FileTree → Except SystemError FileTree) {e : SystemError} (h : f t = .error e) :
    attempt f t = (.error e, t) := by
  rw [attempt, h]

end FileTree

namespace Files

open FileTree (FoldersAdded attempt_of_ok attempt_of_error foldersAdded_createFolder)

variable {α β : Type} {paths : List String} {path : String}

/-- Whatever comes out of the program, it only adds folders on the way to the paths. -/
def AddsFolders (paths : List String) (program : StateM FileTree α) : Prop :=
  ∀ t, FoldersAdded paths t (program t).2

theorem addsFolders_pure (a : α) : AddsFolders paths (pure a) := fun t => .refl t

theorem AddsFolders.bind {program : StateM FileTree α} {next : α → StateM FileTree β}
    (h : AddsFolders paths program) (hnext : ∀ a, AddsFolders paths (next a)) :
    AddsFolders paths (program >>= next) := by
  intro t
  exact (h t).trans (hnext (program t).1 (program t).2)

theorem addsFolders_createFolder (hpath : path ∈ paths) :
    AddsFolders paths (FileAccess.createFolder path : StateM FileTree (Except SystemError Unit)) := by
  intro t
  change FoldersAdded paths t (FileTree.attempt (·.createFolder path) t).2
  cases h : t.createFolder path with
  | error e =>
    rw [attempt_of_error (·.createFolder path) h]
    exact .refl t
  | ok t' =>
    rw [attempt_of_ok (·.createFolder path) h]
    exact (foldersAdded_createFolder h).mono (by simpa using hpath)

theorem addsFolders_isFolder (path : String) :
    AddsFolders paths (FileAccess.isFolder path : StateM FileTree Bool) := fun t => .refl t

theorem addsFolders_ensureFolder (hpath : path ∈ paths) :
    AddsFolders paths (ensureFolder path : StateM FileTree (Except SystemError Unit)) := by
  refine (addsFolders_createFolder hpath).bind fun made => ?_
  cases made with
  | ok _ => exact addsFolders_pure _
  | error e =>
    refine (addsFolders_isFolder path).bind fun there => ?_
    cases there with
    | true => exact addsFolders_pure _
    | false => exact addsFolders_pure _

theorem addsFolders_createFoldersFrom (parents : List String) (hpath : path ∈ paths) (hparents : parents ⊆ paths) :
    AddsFolders paths (createFoldersFrom path parents : StateM FileTree (Except SystemError Unit)) := by
  induction parents generalizing path with
  | nil =>
    unfold createFoldersFrom
    split
    · exact addsFolders_pure _
    · exact addsFolders_ensureFolder hpath
  | cons parent above ih =>
    obtain ⟨hparent, habove⟩ := List.cons_subset.mp hparents
    unfold createFoldersFrom
    split
    · exact addsFolders_pure _
    refine (addsFolders_createFolder hpath).bind fun made => ?_
    cases made with
    | ok _ => exact addsFolders_pure _
    | error e =>
      dsimp only
      split
      · refine (ih hparent habove).bind fun made => ?_
        cases made with
        | ok _ => exact addsFolders_ensureFolder hpath
        | error e => exact addsFolders_pure _
      · refine (addsFolders_isFolder path).bind fun there => ?_
        cases there with
        | true => exact addsFolders_pure _
        | false => exact addsFolders_pure _

/-- Making a folder adds no more than that folder and the missing ones above it, even if it fails halfway. -/
theorem addsFolders_createFolders (path : String) :
    AddsFolders (path :: parents path) (createFolders path : StateM FileTree (Except SystemError Unit)) :=
  addsFolders_createFoldersFrom (parents path) (by simp) (List.subset_cons_self ..)

end Files

end KeyboardPlate

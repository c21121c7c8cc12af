import KeyboardPlate.Command.Build
import KeyboardPlate.Proofs.Files.Tree
import KeyboardPlate.Proofs.Plate.Bounds

/-!
# What a build leaves behind

A build that fails before it has drawn a plate leaves the files alone, and one that fails while it writes the
texts of the outputs has at most made the output folder. A build that succeeds has put those texts, all of
one plate, into the files asked for, and has touched no other file.
-/

set_option autoImplicit false

namespace KeyboardPlate.Command

open FileTree (FoldersAdded exists_of_write entry_insert eq_of_walk_join)

variable {request : BuildRequest} {t t' u : FileTree} {keys : List Key} {options : Options} {p : Plate Float}
  {path content : String} {files : List (String × String)} {e : Failure}

/-! ## Loading -/

/-- The layout and the options of a request can be read, and hold these keys and options. -/
structure Loads (t : FileTree) (request : BuildRequest) (keys : List Key) (options : Options) : Prop where
  layout : ∃ text, t.read request.layout = .ok text ∧ Layout.resolve text = .ok keys
  options : match request.options with
    | none => options = {}
    | some path => ∃ text, t.read path = .ok text ∧ readOptions path text = .ok options

/-- What loading a layout from a tree gives. -/
def layoutOf (t : FileTree) (path : String) : Except Failure (List Key) :=
  match t.read path with
  | .error e => .error (.unreadableLayout path e)
  | .ok text => (Layout.resolve text).mapError (.invalidLayout path)

def optionsOf (t : FileTree) : Option String → Except Failure Options
  | none => .ok {}
  | some path =>
    match t.read path with
    | .error e => .error (.unreadableOptions path e)
    | .ok text => (readOptions path text).mapError (.invalidOptions path)

theorem loadLayout_apply (path : String) (t : FileTree) :
    (loadLayout path : StateM FileTree (Except Failure (List Key))) t = (layoutOf t path, t) := by
  unfold layoutOf
  change (match t.read path with
    | .error e => (pure (.error (.unreadableLayout path e)) : StateM FileTree (Except Failure (List Key)))
    | .ok text => pure ((Layout.resolve text).mapError (.invalidLayout path))) t = _
  cases t.read path with
  | error e => rfl
  | ok text => rfl

theorem loadOptions_apply (path : Option String) (t : FileTree) :
    (loadOptions path : StateM FileTree (Except Failure Options)) t = (optionsOf t path, t) := by
  cases path with
  | none => rfl
  | some path =>
    rw [optionsOf]
    change (match t.read path with
      | .error e => (pure (.error (.unreadableOptions path e)) : StateM FileTree (Except Failure Options))
      | .ok text => pure ((readOptions path text).mapError (.invalidOptions path))) t = _
    cases t.read path with
    | error e => rfl
    | ok text => rfl

theorem layoutOf_eq_ok_iff : layoutOf t path = .ok keys ↔
    ∃ text, t.read path = .ok text ∧ Layout.resolve text = .ok keys := by
  unfold layoutOf
  cases t.read path with
  | error e => simp
  | ok text => simp [Except.mapError_eq_ok_iff]

theorem optionsOf_eq_ok_iff : optionsOf t (some path) = .ok options ↔
    ∃ text, t.read path = .ok text ∧ readOptions path text = .ok options := by
  rw [optionsOf]
  cases t.read path with
  | error e => simp
  | ok text => simp [Except.mapError_eq_ok_iff]

theorem loads_iff : Loads t request keys options ↔
    layoutOf t request.layout = .ok keys ∧ optionsOf t request.options = .ok options := by
  constructor
  · rintro ⟨hlayout, hoptions⟩
    refine ⟨layoutOf_eq_ok_iff.mpr hlayout, ?_⟩
    cases hrequest : request.options with
    | none =>
      rw [hrequest] at hoptions
      rw [hoptions]
      rfl
    | some path =>
      rw [hrequest] at hoptions
      exact optionsOf_eq_ok_iff.mpr hoptions
  · rintro ⟨hlayout, hoptions⟩
    refine ⟨layoutOf_eq_ok_iff.mp hlayout, ?_⟩
    cases hrequest : request.options with
    | none =>
      rw [hrequest] at hoptions
      cases hoptions
      rfl
    | some path =>
      rw [hrequest] at hoptions
      exact optionsOf_eq_ok_iff.mp hoptions

theorem exitCode_layoutOf (h : layoutOf t path = .error e) : e.exitCode = 2 := by
  unfold layoutOf at h
  split at h
  · cases h
    rfl
  · obtain ⟨reason, -, rfl⟩ := Except.mapError_eq_error_iff.mp h
    rfl

theorem exitCode_optionsOf {path : Option String} (h : optionsOf t path = .error e) : e.exitCode = 2 := by
  cases path with
  | none => cases h
  | some path =>
    rw [optionsOf] at h
    split at h
    · cases h
      rfl
    · obtain ⟨reason, -, rfl⟩ := Except.mapError_eq_error_iff.mp h
      rfl

/-- A build once its input is there. -/
def buildFrom (request : BuildRequest) (keys : List Key) (options : Options) :
    StateM FileTree (Except Failure Report) :=
  match Plate.build keys options with
  | .error e => pure (.error (.plate e))
  | .ok p => writePlate request p

theorem bind_apply {α β : Type} (program : StateM FileTree α) (next : α → StateM FileTree β) (t : FileTree) :
    (program >>= next) t = next (program t).1 (program t).2 := rfl

theorem build_apply (request : BuildRequest) (t : FileTree) :
    (build request : StateM FileTree (Except Failure Report)) t =
      match layoutOf t request.layout, optionsOf t request.options with
      | .error e, _ => (.error e, t)
      | .ok _, .error e => (.error e, t)
      | .ok keys, .ok options => buildFrom request keys options t := by
  unfold build
  rw [bind_apply, loadLayout_apply]
  cases layoutOf t request.layout with
  | error e => rfl
  | ok keys =>
    dsimp only
    rw [bind_apply, loadOptions_apply]
    cases optionsOf t request.options with
    | error e => rfl
    | ok options => rfl

theorem build_of_loads (h : Loads t request keys options) :
    (build request : StateM FileTree (Except Failure Report)) t = buildFrom request keys options t := by
  obtain ⟨hlayout, hoptions⟩ := loads_iff.mp h
  rw [build_apply, hlayout, hoptions]

theorem build_of_not_loads (h : ¬∃ keys options, Loads t request keys options) :
    ∃ e, (build request : StateM FileTree (Except Failure Report)) t = (.error e, t) ∧ e.exitCode = 2 := by
  rw [build_apply]
  cases hlayout : layoutOf t request.layout with
  | error e => exact ⟨e, rfl, exitCode_layoutOf hlayout⟩
  | ok keys =>
    cases hoptions : optionsOf t request.options with
    | error e => exact ⟨e, rfl, exitCode_optionsOf hoptions⟩
    | ok options => exact absurd ⟨keys, options, loads_iff.mpr ⟨hlayout, hoptions⟩⟩ h

/-! ## Writing -/

theorem writeAll_cons (path text : String) (files : List (String × String)) (t : FileTree) :
    (writeAll ((path, text) :: files) : StateM FileTree (Except Failure Unit)) t =
      match t.write path text with
      | .error e => (.error (.unwritten path e), t)
      | .ok t' => (writeAll files : StateM FileTree (Except Failure Unit)) t' := by
  rw [writeAll, bind_apply]
  cases h : t.write path text with
  | error e =>
    have hwrite : (FileAccess.write path text : StateM FileTree (Except SystemError Unit)) t = (.error e, t) :=
      FileTree.attempt_of_error (·.write path text) h
    rewrite [hwrite]
    rfl
  | ok t' =>
    have hwrite : (FileAccess.write path text : StateM FileTree (Except SystemError Unit)) t = (.ok (), t') :=
      FileTree.attempt_of_ok (·.write path text) h
    rewrite [hwrite]
    rfl

/-- Why not all files were written is that one of them was not. -/
theorem unwritten_of_writeAll (h : ((writeAll files : StateM FileTree (Except Failure Unit)) t).1 = .error e) :
    ∃ f ∈ files, ∃ reason, e = .unwritten f.1 reason := by
  induction files generalizing t with
  | nil => cases h
  | cons f files ih =>
    obtain ⟨path, text⟩ := f
    rw [writeAll_cons] at h
    split at h
    · rename_i reason _
      cases h
      exact ⟨(path, text), by simp, reason, rfl⟩
    · obtain ⟨f, hf, hreason⟩ := ih h
      exact ⟨f, List.mem_cons_of_mem _ hf, hreason⟩

/-- The files have been written to the tree: its folders are the same, a file that no path leads to is as it
was, and each path leads to a file with the last text written there. -/
structure Written (files : List (String × String)) (t t' : FileTree) : Prop where
  folders : t.Extends t'
  noFolder : t'.Extends t
  others : ∀ r, (∀ f ∈ files, t.walk f.1 ≠ .ok r) → t'.entry? r = t.entry? r
  texts : ∀ f ∈ files, ∃ r, t.walk f.1 = .ok r ∧ ∃ g ∈ files, t.walk g.1 = .ok r ∧ t'.entry? r = some (.file g.2)

theorem Written.nil (t : FileTree) : Written [] t t where
  folders := fun _ h => h
  noFolder := fun _ h => h
  others := fun _ _ => rfl
  texts := fun _ h => by cases h

theorem Written.cons (hwrite : t.write path content = .ok u) (h : Written files u t') :
    Written ((path, content) :: files) t t' := by
  obtain ⟨route, hwalk, hroute, rfl⟩ := exists_of_write hwrite
  have hto : t.Extends (t.insert route (.file content)) := by
    intro r hr
    rw [entry_insert hroute, if_neg]
    · exact hr
    · rintro rfl
      exact hroute hr
  have hback : (t.insert route (.file content)).Extends t := by
    intro r hr
    rw [entry_insert hroute] at hr
    split at hr
    · cases hr
    · exact hr
  refine ⟨hto.trans h.folders, h.noFolder.trans hback, ?_, ?_⟩
  · intro r hr
    obtain ⟨hfirst, hrest⟩ := List.forall_mem_cons.mp hr
    have hne : r ≠ route := by
      rintro rfl
      exact hfirst hwalk
    rw [h.others r fun f hf hf' => hrest f hf (hback.walk hf'), entry_insert hroute, if_neg hne]
  · -- a later file at the same place replaces the first one
    have hlater : ∀ f ∈ files, ∀ r, t.walk f.1 = .ok r →
        ∃ g ∈ (path, content) :: files, t.walk g.1 = .ok r ∧ t'.entry? r = some (.file g.2) := by
      intro f hf r hr
      obtain ⟨r', hr', g, hg, hgr, hentry⟩ := h.texts f hf
      rw [hto.walk hr] at hr'
      cases hr'
      exact ⟨g, List.mem_cons_of_mem _ hg, hback.walk hgr, hentry⟩
    intro f hf
    rcases List.mem_cons.mp hf with rfl | hf
    · refine ⟨route, hwalk, ?_⟩
      by_cases hagain : ∃ f ∈ files, t.walk f.1 = .ok route
      · obtain ⟨f, hf, hr⟩ := hagain
        exact hlater f hf route hr
      · refine ⟨(path, content), by simp, hwalk, ?_⟩
        rw [h.others route fun f hf hr => hagain ⟨f, hf, hback.walk hr⟩, entry_insert hroute, if_pos rfl]
    · obtain ⟨r, hr, -⟩ := h.texts f hf
      exact ⟨r, hback.walk hr, hlater f hf r (hback.walk hr)⟩

theorem written_of_writeAll (h : ((writeAll files : StateM FileTree (Except Failure Unit)) t).1 = .ok ()) :
    Written files t ((writeAll files : StateM FileTree (Except Failure Unit)) t).2 := by
  induction files generalizing t with
  | nil => exact .nil t
  | cons f files ih =>
    obtain ⟨path, text⟩ := f
    rw [writeAll_cons] at h ⊢
    cases hwrite : t.write path text with
    | error e =>
      rw [hwrite] at h
      cases h
    | ok u =>
      rw [hwrite] at h
      exact .cons hwrite (ih h)

/-! ## Outputs -/

/-- What can be asked for in a file. -/
inductive Output where
  | plate (format : Format)
  | preview

namespace Output

def fileName : Output → String
  | plate .dxf => "plate.dxf"
  | plate .svg => "plate.svg"
  | plate .json => "plate.json"
  | preview => "preview.svg"

/-- The text that belongs into the file: the drawing of the whole plate, in the style of a download or of a
preview, or the models of the plate by name. -/
def text (p : Plate Float) : Output → Except ExportError String
  | plate .dxf => Drawing.dxf p.toModel
  | plate .svg => Drawing.svg .download p.toModel
  | plate .json => .ok (Json.object [("models", .object (Model.childrenToJson p.models))]).indentedText
  | preview => Drawing.svg .preview p.toModel

theorem fileName_plate (f : Format) : (plate f).fileName = f.fileName := by
  cases f <;> decide

theorem text_plate (f : Format) (p : Plate Float) : (plate f).text p = f.text p := by
  cases f <;> rfl

theorem fileName_injective {o o' : Output} (h : o.fileName = o'.fileName) : o = o' := by
  cases o with
  | plate f =>
    cases o' with
    | plate g =>
      cases f <;> cases g <;> first
        | rfl
        | exact absurd h (by decide)
    | preview => cases f <;> exact absurd h (by decide)
  | preview =>
    cases o' with
    | plate g => cases g <;> exact absurd h (by decide)
    | preview => rfl

theorem isPlain_fileName (o : Output) : Files.IsPlain o.fileName := by
  cases o with
  | plate f => cases f <;> exact ⟨by decide, by decide⟩
  | preview => exact ⟨by decide, by decide⟩

end Output

/-- The outputs that a build is asked for, in order. -/
def wanted (request : BuildRequest) : List Output :=
  request.formats.map .plate ++ if request.preview then [.preview] else []

theorem outputs_eq (request : BuildRequest) (p : Plate Float) :
    outputs request.formats request.preview p = (wanted request).mapM fun o => do return (o.fileName, ← o.text p) := by
  have hplates : (request.formats.mapM fun f => do return (f.fileName, ← f.text p) : Except ExportError _) =
      (request.formats.map Output.plate).mapM fun o => do return (o.fileName, ← o.text p) := by
    rw [List.mapM_map]
    simp only [Function.comp_def, Output.fileName_plate, Output.text_plate]
  unfold outputs wanted
  rw [hplates, List.mapM_append]
  cases request.preview with
  | true => simp [Output.fileName, Output.text]
  | false => simp

/-- The files with the given names and texts in a folder. -/
def filesIn (folder : String) (texts : List (String × String)) : List (String × String) :=
  texts.map fun (name, text) => (Files.join folder name, text)

/-- How a build that has drawn its plate stops, and the tree it leaves: the output folder cannot be made, a
text cannot be written, or a file cannot. -/
inductive Stops (t : FileTree) (request : BuildRequest) (p : Plate Float) : Failure → FileTree → Prop
  | folder {e : SystemError} {u : FileTree} :
      (Files.createFolders request.output : StateM FileTree (Except SystemError Unit)) t = (.error e, u) →
      Stops t request p (.unwritten request.output e) u
  | drawing {e : ExportError} {u : FileTree} :
      (Files.createFolders request.output : StateM FileTree (Except SystemError Unit)) t = (.ok (), u) →
      outputs request.formats request.preview p = .error e →
      Stops t request p (.drawing e) u
  | file {texts : List (String × String)} {e : Failure} {u v : FileTree} :
      (Files.createFolders request.output : StateM FileTree (Except SystemError Unit)) t = (.ok (), u) →
      outputs request.formats request.preview p = .ok texts →
      (writeAll (filesIn request.output texts) : StateM FileTree (Except Failure Unit)) u = (.error e, v) →
      Stops t request p e v

theorem Stops.exitCode {v : FileTree} (h : Stops t request p e v) : e.exitCode = 3 := by
  cases h with
  | folder _ => rfl
  | drawing _ _ => rfl
  | file _ _ hfiles =>
    obtain ⟨f, -, reason, rfl⟩ := unwritten_of_writeAll (congrArg Prod.fst hfiles)
    rfl

/-- How a build that has drawn its plate comes to its end. -/
structure Finishes (t : FileTree) (request : BuildRequest) (p : Plate Float) (report : Report) (v : FileTree) :
    Prop where
  steps : ∃ u texts,
    (Files.createFolders request.output : StateM FileTree (Except SystemError Unit)) t = (.ok (), u) ∧
    outputs request.formats request.preview p = .ok texts ∧
    (writeAll (filesIn request.output texts) : StateM FileTree (Except Failure Unit)) u = (.ok (), v) ∧
    report.written = (filesIn request.output texts).map (·.1)
  width : p.bounds.width? = some report.width
  height : p.bounds.height? = some report.height
  modelCount : report.modelCount = p.models.length

theorem writePlate_of_texts {texts : List (String × String)} {width height : Decimal}
    {wrote : Except Failure Unit} {v : FileTree}
    (hfolders : (Files.createFolders request.output : StateM FileTree (Except SystemError Unit)) t = (.ok (), u))
    (htexts : outputs request.formats request.preview p = .ok texts) (hwidth : p.bounds.width? = some width)
    (hheight : p.bounds.height? = some height)
    (hfiles : (writeAll (filesIn request.output texts) : StateM FileTree (Except Failure Unit)) u = (wrote, v)) :
    (writePlate request p : StateM FileTree (Except Failure Report)) t =
      (wrote.map fun _ => ⟨(filesIn request.output texts).map (·.1), width, height, p.models.length⟩, v) := by
  unfold writePlate
  rw [bind_apply, hfolders, htexts, hwidth, hheight]
  dsimp only
  unfold filesIn at hfiles
  rewrite [bind_apply, hfiles]
  cases wrote with
  | error e => rfl
  | ok _ => rfl

/-- A build either stops or comes to its end once there is a plate. -/
theorem writePlate_cases {width height : Decimal} (hwidth : p.bounds.width? = some width)
    (hheight : p.bounds.height? = some height) :
    (∃ e v, (writePlate request p : StateM FileTree (Except Failure Report)) t = (.error e, v) ∧
      Stops t request p e v) ∨
    ∃ report v, (writePlate request p : StateM FileTree (Except Failure Report)) t = (.ok report, v) ∧
      Finishes t request p report v := by
  rcases hfolders : (Files.createFolders request.output : StateM FileTree (Except SystemError Unit)) t with ⟨made, u⟩
  cases made with
  | error e =>
    refine .inl ⟨_, u, ?_, .folder hfolders⟩
    unfold writePlate
    rw [bind_apply, hfolders]
    rfl
  | ok _ =>
    cases htexts : outputs request.formats request.preview p with
    | error e =>
      refine .inl ⟨_, u, ?_, .drawing hfolders htexts⟩
      unfold writePlate
      rw [bind_apply, hfolders, htexts]
      rfl
    | ok texts =>
      rcases hfiles : (writeAll (filesIn request.output texts) : StateM FileTree (Except Failure Unit)) u
        with ⟨wrote, v⟩
      rw [writePlate_of_texts hfolders htexts hwidth hheight hfiles]
      cases wrote with
      | error e => exact .inl ⟨e, v, rfl, .file hfolders htexts hfiles⟩
      | ok _ => exact .inr ⟨_, v, rfl, ⟨u, texts, hfolders, htexts, hfiles, rfl⟩, hwidth, hheight, rfl⟩

section Finished
variable {texts : List (String × String)} {report : Report} {v : FileTree} {folder : String}

theorem map_filesIn (h : outputs request.formats request.preview p = .ok texts) (folder : String) :
    (filesIn folder texts).map (·.1) = (wanted request).map fun o => Files.join folder o.fileName := by
  rw [outputs_eq, Except.mapM_eq_ok_iff] at h
  generalize wanted request = outputs at h ⊢
  induction h with
  | nil => rfl
  | cons hx _ ih =>
    obtain ⟨text, -, heq⟩ := Except.bind_eq_ok_iff.mp hx
    cases heq
    exact congrArg _ ih

theorem exists_of_mem_filesIn (h : outputs request.formats request.preview p = .ok texts) {f : String × String}
    (hf : f ∈ filesIn folder texts) :
    ∃ o ∈ wanted request, f.1 = Files.join folder o.fileName ∧ o.text p = .ok f.2 := by
  rw [outputs_eq] at h
  obtain ⟨y, hy, rfl⟩ := List.mem_map.mp hf
  obtain ⟨o, ho, hoy⟩ := Except.exists_of_mem_mapM h hy
  obtain ⟨text, htext, heq⟩ := Except.bind_eq_ok_iff.mp hoy
  cases heq
  exact ⟨o, ho, rfl, htext⟩

theorem exists_mem_filesIn (h : outputs request.formats request.preview p = .ok texts) {o : Output}
    (ho : o ∈ wanted request) :
    ∃ text, o.text p = .ok text ∧ (Files.join folder o.fileName, text) ∈ filesIn folder texts := by
  rw [outputs_eq] at h
  obtain ⟨y, hy, hoy⟩ := Except.exists_mem_of_mapM h ho
  obtain ⟨text, htext, heq⟩ := Except.bind_eq_ok_iff.mp hoy
  cases heq
  exact ⟨text, htext, List.mem_map.mpr ⟨_, hy, rfl⟩⟩

/-- The file of each output holds its text, also where an output is asked for twice. -/
theorem Finishes.read (h : Finishes t request p report v) {o : Output} (ho : o ∈ wanted request) :
    ∃ text, o.text p = .ok text ∧ v.read (Files.join request.output o.fileName) = .ok text := by
  obtain ⟨u, texts, -, htexts, hfiles, -⟩ := h.steps
  have hwritten := written_of_writeAll (congrArg Prod.fst hfiles)
  rw [hfiles] at hwritten
  obtain ⟨text, htext, hmem⟩ := exists_mem_filesIn htexts ho
  refine ⟨text, htext, ?_⟩
  obtain ⟨r, hr, g, hg, hgr, hentry⟩ := hwritten.texts _ hmem
  obtain ⟨o', -, hpath, htext'⟩ := exists_of_mem_filesIn htexts hg
  rw [hpath] at hgr
  have hname := eq_of_walk_join o.isPlain_fileName o'.isPlain_fileName hr hgr
  rw [← Output.fileName_injective hname, htext] at htext'
  cases htext'
  refine Except.bind_eq_ok_iff.mpr ⟨r, hwritten.folders.walk hr, ?_⟩
  rw [hentry]

/-- Every other file is as it was. -/
theorem Finishes.file_iff (h : Finishes t request p report v) {r : Route}
    (hr : ∀ o ∈ wanted request, v.walk (Files.join request.output o.fileName) ≠ .ok r) (text : String) :
    v.entry? r = some (.file text) ↔ t.entry? r = some (.file text) := by
  obtain ⟨u, texts, hfolders, htexts, hfiles, -⟩ := h.steps
  have hwritten := written_of_writeAll (congrArg Prod.fst hfiles)
  rw [hfiles] at hwritten
  have hadded := Files.addsFolders_createFolders request.output t
  rw [hfolders] at hadded
  have hsame : v.entry? r = u.entry? r := by
    apply hwritten.others
    intro f hf hwalk
    obtain ⟨o, ho, hpath, -⟩ := exists_of_mem_filesIn htexts hf
    rw [hpath] at hwalk
    exact hr o ho (hwritten.folders.walk hwalk)
  rw [hsame]
  exact hadded.file_iff r text

theorem Finishes.written (h : Finishes t request p report v) :
    report.written = (wanted request).map fun o => Files.join request.output o.fileName := by
  obtain ⟨u, texts, -, htexts, -, hwritten⟩ := h.steps
  rw [hwritten, map_filesIn htexts]

end Finished

/-! ## Runs -/

/-- How a build on a tree of files ends. -/
def ending (request : BuildRequest) (t : FileTree) : Ending :=
  match ((build request : StateM FileTree (Except Failure Report)) t).1 with
  | .error e => .failed e
  | .ok report => .built report

/-- The tree that a build leaves. -/
def treeAfter (request : BuildRequest) (t : FileTree) : FileTree :=
  ((build request : StateM FileTree (Except Failure Report)) t).2

theorem run_build {arguments : List String} (h : read arguments = .ok (.build request)) (t : FileTree) :
    (run arguments : StateM FileTree Ending) t = (ending request t, treeAfter request t) := by
  unfold run ending treeAfter
  rw [h]
  dsimp only
  rw [bind_apply]
  cases ((build request : StateM FileTree (Except Failure Report)) t).1 with
  | error e => rfl
  | ok report => rfl

theorem ending_of_not_loads (h : ¬∃ keys options, Loads t request keys options) :
    ∃ e, ending request t = .failed e ∧ e.exitCode = 2 ∧ treeAfter request t = t := by
  obtain ⟨e, hbuild, he⟩ := build_of_not_loads h
  refine ⟨e, ?_, he, ?_⟩
  · rw [ending, hbuild]
  · rw [treeAfter, hbuild]

theorem ending_of_plate_error {e : PlateError Float} (h : Loads t request keys options)
    (he : Plate.build keys options = .error e) :
    ending request t = .failed (.plate e) ∧ treeAfter request t = t := by
  have hbuild := build_of_loads h
  rw [buildFrom, he] at hbuild
  constructor
  · rw [ending, hbuild]
    rfl
  · rw [treeAfter, hbuild]
    rfl

theorem ending_of_plate (h : Loads t request keys options) (hp : Plate.build keys options = .ok p) :
    (∃ e, ending request t = .failed e ∧ Stops t request p e (treeAfter request t)) ∨
    ∃ report, ending request t = .built report ∧ Finishes t request p report (treeAfter request t) := by
  have hbuild := build_of_loads h
  rw [buildFrom, hp] at hbuild
  obtain ⟨width, height, hwidth, hheight⟩ := Plate.exists_extent_of_build hp
  unfold ending treeAfter
  rw [hbuild]
  rcases writePlate_cases hwidth hheight with ⟨e, v, hrun, hstops⟩ | ⟨report, v, hrun, hfinishes⟩
  · left
    dsimp only
    rw [hrun]
    exact ⟨e, rfl, hstops⟩
  · right
    dsimp only
    rw [hrun]
    exact ⟨report, rfl, hfinishes⟩

theorem Stops.not_finishes {report : Report} {v w : FileTree} (h : Stops t request p e v) :
    ¬Finishes t request p report w := by
  rintro ⟨⟨u, texts, hfolders, htexts, hfiles, -⟩, -, -, -⟩
  cases h with
  | folder hfolders' =>
    rw [hfolders] at hfolders'
    cases hfolders'
  | drawing _ htexts' =>
    rw [htexts] at htexts'
    cases htexts'
  | file hfolders' htexts' hfiles' =>
    rw [hfolders] at hfolders'
    cases hfolders'
    rw [htexts] at htexts'
    cases htexts'
    rw [hfiles] at hfiles'
    cases hfiles'

theorem join_ne_folder (folder : String) {name : String} (hname : name ≠ "") : Files.join folder name ≠ folder := by
  intro heq
  have hlen := congrArg String.length heq
  have hpos : 0 < name.length := by
    rw [Nat.pos_iff_ne_zero]
    intro hzero
    exact hname (String.length_eq_zero_iff.mp hzero)
  unfold Files.join at hlen
  split at hlen
  · rw [String.length_append] at hlen
    omega
  · rw [String.length_append, String.length_append] at hlen
    omega

/-- Before the first file is written, nothing but folders on the way to the output folder is new. -/
theorem Stops.foldersAdded {v : FileTree} (h : Stops t request p e v)
    (he : (∃ reason, e = .drawing reason) ∨ ∃ reason, e = .unwritten request.output reason) :
    FoldersAdded (request.output :: Files.parents request.output) t v := by
  have hadded := Files.addsFolders_createFolders request.output t
  cases h with
  | folder hfolders =>
    rw [hfolders] at hadded
    exact hadded
  | drawing hfolders _ =>
    rw [hfolders] at hadded
    exact hadded
  | file _ htexts hfiles =>
    -- a file that cannot be written is not the folder it would be in
    obtain ⟨f, hf, reason, rfl⟩ := unwritten_of_writeAll (congrArg Prod.fst hfiles)
    obtain ⟨o, -, hpath, -⟩ := exists_of_mem_filesIn htexts hf
    rcases he with ⟨reason', he⟩ | ⟨reason', he⟩
    · cases he
    · injection he with heq
      rw [hpath] at heq
      exact absurd heq (join_ne_folder _ o.isPlain_fileName.leads.1)

/-- A stage behind the loading of a layout and options returns an error. -/
def FailsLater (t : FileTree) (request : BuildRequest) (keys : List Key) (options : Options) : Prop :=
  (∃ e : PlateError Float, Plate.build keys options = .error e ∧ e ≠ .overflow) ∨
    ∃ p, Plate.build keys options = .ok p ∧ ∃ e v, Stops t request p e v

/-- The files asked for, and no others, hold what is drawn of the plate, and the report tells of each. -/
structure Delivers (t : FileTree) (request : BuildRequest) (p : Plate Float) (report : Report) (v : FileTree) :
    Prop where
  reads : ∀ o ∈ wanted request, ∃ text, o.text p = .ok text ∧
    v.read (Files.join request.output o.fileName) = .ok text
  others : ∀ (r : Route) (text : String),
    (∀ o ∈ wanted request, v.walk (Files.join request.output o.fileName) ≠ .ok r) →
      (v.entry? r = some (.file text) ↔ t.entry? r = some (.file text))
  extent : p.bounds.width? = some report.width ∧ p.bounds.height? = some report.height
  output : (Ending.built report).output =
    String.join ((wanted request).map fun o => "Wrote " ++ Files.join request.output o.fileName ++ "\n") ++
      "Plate " ++ report.width.text ++ " x " ++ report.height.text ++ " mm, " ++ toString p.models.length ++ " models.\n"

theorem Finishes.delivers {report : Report} {v : FileTree} (h : Finishes t request p report v) :
    Delivers t request p report v where
  reads := fun _ ho => h.read ho
  others := fun _ text hr => h.file_iff hr text
  extent := ⟨h.width, h.height⟩
  output := by
    change report.text = _
    rw [Report.text, h.written, h.modelCount, List.map_map]
    rfl

/-- The four ways a build can end, and what each leaves. -/
inductive Fate (request : BuildRequest) (t : FileTree) : Ending → FileTree → Prop
  | unloaded {e : Failure} : (¬∃ keys options, Loads t request keys options) → e.exitCode = 2 →
      Fate request t (.failed e) t
  | undrawn {keys : List Key} {options : Options} {e : PlateError Float} : Loads t request keys options →
      Plate.build keys options = .error e → Fate request t (.failed (.plate e)) t
  | stopped {keys : List Key} {options : Options} {p : Plate Float} {e : Failure} {v : FileTree} :
      Loads t request keys options → Plate.build keys options = .ok p → Stops t request p e v →
      Fate request t (.failed e) v
  | finished {keys : List Key} {options : Options} {p : Plate Float} {report : Report} {v : FileTree} :
      Loads t request keys options → Plate.build keys options = .ok p → Finishes t request p report v →
      Fate request t (.built report) v

theorem fate (request : BuildRequest) (t : FileTree) : Fate request t (ending request t) (treeAfter request t) := by
  by_cases hloads : ∃ keys options, Loads t request keys options
  · obtain ⟨keys, options, hloads⟩ := hloads
    cases hplate : (Plate.build keys options : Except (PlateError Float) (Plate Float)) with
    | error e =>
      obtain ⟨hending, htree⟩ := ending_of_plate_error hloads hplate
      rw [hending, htree]
      exact .undrawn hloads hplate
    | ok p =>
      rcases ending_of_plate hloads hplate with ⟨e, hending, hstops⟩ | ⟨report, hending, hfinishes⟩
      · rw [hending]
        exact .stopped hloads hplate hstops
      · rw [hending]
        exact .finished hloads hplate hfinishes
  · obtain ⟨e, hending, he, htree⟩ := ending_of_not_loads hloads
    rw [hending, htree]
    exact .unloaded hloads he

theorem exitCode_plate (e : PlateError Float) :
    (Failure.plate e).exitCode = if e = .overflow then 101 else 3 := by
  cases e with
  | overflow => rfl
  | _ => rfl

/-- What is loaded is determined by the tree. -/
theorem Loads.exists_iff (h : Loads t request keys options) {P : List Key → Options → Prop} :
    (∃ keys options, Loads t request keys options ∧ P keys options) ↔ P keys options := by
  constructor
  · rintro ⟨keys', options', h', hP⟩
    obtain ⟨hlayout, hoptions⟩ := loads_iff.mp h
    obtain ⟨hlayout', hoptions'⟩ := loads_iff.mp h'
    rw [hlayout] at hlayout'
    rw [hoptions] at hoptions'
    cases hlayout'
    cases hoptions'
    exact hP
  · intro hP
    exact ⟨keys, options, h, hP⟩

theorem failsLater_of_error {e : PlateError Float} (he : Plate.build keys options = .error e) :
    FailsLater t request keys options ↔ e ≠ .overflow := by
  unfold FailsLater
  rw [he]
  constructor
  · rintro (⟨e', he', hne⟩ | ⟨p, hp, -⟩)
    · cases he'
      exact hne
    · cases hp
  · intro hne
    exact .inl ⟨e, rfl, hne⟩

theorem failsLater_of_ok (hp : Plate.build keys options = .ok p) :
    FailsLater t request keys options ↔ ∃ e v, Stops t request p e v := by
  unfold FailsLater
  rw [hp]
  constructor
  · rintro (⟨e, he, -⟩ | ⟨p', hp', hstops⟩)
    · cases he
    · cases hp'
      exact hstops
  · intro hstops
    exact .inr ⟨p, rfl, hstops⟩

/-- What a build promises about its exit code, about the tree it leaves and about its report. -/
structure Outcome (request : BuildRequest) (t : FileTree) (ending : Ending) (t' : FileTree) : Prop where
  unread : ending.exitCode = 2 ↔ ¬∃ keys options, Loads t request keys options
  later : ending.exitCode = 3 ↔ ∃ keys options, Loads t request keys options ∧ FailsLater t request keys options
  overflow : ending.exitCode = 101 ↔ ∃ keys options, Loads t request keys options ∧
    Plate.build keys options = .error (.overflow : PlateError Float)
  codes : ending.exitCode ∈ [0, 2, 3, 101]
  untouched : ∀ e, ending = .failed e → (e.exitCode = 2 ∨ ∃ reason, e = .plate reason) → t' = t
  onlyFolders : ∀ e, ending = .failed e →
    ((∃ reason, e = .drawing reason) ∨ ∃ reason, e = .unwritten request.output reason) →
    FoldersAdded (request.output :: Files.parents request.output) t t'
  delivers : ending.exitCode = 0 → ∃ report keys options p, ending = .built report ∧
    Loads t request keys options ∧ Plate.build keys options = .ok p ∧ Delivers t request p report t'

section Outcome
variable {ending : Ending}

theorem Fate.unread (h : Fate request t ending t') :
    ending.exitCode = 2 ↔ ¬∃ keys options, Loads t request keys options := by
  cases h with
  | unloaded hnone he => exact iff_of_true he hnone
  | @undrawn keys options e hloads hplate =>
    refine iff_of_false ?_ (not_not_intro ⟨keys, options, hloads⟩)
    change ¬(Failure.plate e).exitCode = 2
    rw [exitCode_plate]
    split
    · decide
    · decide
  | @stopped keys options p e v hloads hplate hstops =>
    refine iff_of_false ?_ (not_not_intro ⟨keys, options, hloads⟩)
    change ¬e.exitCode = 2
    rw [hstops.exitCode]
    decide
  | @finished keys options p report v hloads hplate hfinishes =>
    exact iff_of_false nofun (not_not_intro ⟨keys, options, hloads⟩)

theorem Fate.later (h : Fate request t ending t') : ending.exitCode = 3 ↔
    ∃ keys options, Loads t request keys options ∧ FailsLater t request keys options := by
  cases h with
  | unloaded hnone he =>
    refine iff_of_false ?_ fun ⟨keys, options, hloads, _⟩ => hnone ⟨keys, options, hloads⟩
    change ¬Failure.exitCode _ = 3
    rw [he]
    decide
  | @undrawn keys options e hloads hplate =>
    rw [hloads.exists_iff, failsLater_of_error hplate]
    change (Failure.plate e).exitCode = 3 ↔ _
    rw [exitCode_plate]
    by_cases he : e = .overflow
    · simp [he]
    · simp [he]
  | @stopped keys options p e v hloads hplate hstops =>
    rw [hloads.exists_iff, failsLater_of_ok hplate]
    exact iff_of_true hstops.exitCode ⟨e, t', hstops⟩
  | @finished keys options p report v hloads hplate hfinishes =>
    rw [hloads.exists_iff, failsLater_of_ok hplate]
    exact iff_of_false nofun fun ⟨_, _, hstops⟩ => hstops.not_finishes hfinishes

theorem Fate.overflow (h : Fate request t ending t') : ending.exitCode = 101 ↔
    ∃ keys options, Loads t request keys options ∧
      Plate.build keys options = .error (.overflow : PlateError Float) := by
  cases h with
  | unloaded hnone he =>
    refine iff_of_false ?_ fun ⟨keys, options, hloads, _⟩ => hnone ⟨keys, options, hloads⟩
    change ¬Failure.exitCode _ = 101
    rw [he]
    decide
  | @undrawn keys options e hloads hplate =>
    rw [hloads.exists_iff, hplate]
    change (Failure.plate e).exitCode = 101 ↔ _
    rw [exitCode_plate]
    by_cases he : e = .overflow
    · simp [he]
    · simp [he]
  | @stopped keys options p e v hloads hplate hstops =>
    rw [hloads.exists_iff, hplate]
    refine iff_of_false ?_ nofun
    change ¬e.exitCode = 101
    rw [hstops.exitCode]
    decide
  | @finished keys options p report v hloads hplate hfinishes =>
    rw [hloads.exists_iff, hplate]
    exact iff_of_false nofun nofun

theorem Fate.exitCode (h : Fate request t ending t') : ending.exitCode ∈ [0, 2, 3, 101] := by
  cases h with
  | @unloaded e _ he =>
    change e.exitCode ∈ _
    rw [he]
    decide
  | @undrawn keys options e _ _ =>
    change (Failure.plate e).exitCode ∈ _
    rw [exitCode_plate]
    split
    · decide
    · decide
  | @stopped keys options p e _ _ _ hstops =>
    change e.exitCode ∈ _
    rw [hstops.exitCode]
    decide
  | finished _ _ _ => exact List.mem_cons_self

theorem Fate.untouched (h : Fate request t ending t') : ∀ e, ending = .failed e →
    (e.exitCode = 2 ∨ ∃ reason, e = .plate reason) → t' = t := by
  intro e hending he
  cases h with
  | unloaded _ _ => rfl
  | undrawn _ _ => rfl
  | stopped _ _ hstops =>
    cases hending
    have hcode := hstops.exitCode
    rcases he with htwo | ⟨reason, rfl⟩
    · rw [htwo] at hcode
      cases hcode
    · cases hstops with
      | file _ _ hfiles =>
        obtain ⟨f, -, reason', heq⟩ := unwritten_of_writeAll (congrArg Prod.fst hfiles)
        cases heq
  | finished _ _ _ => cases hending

theorem Fate.onlyFolders (h : Fate request t ending t') : ∀ e, ending = .failed e →
    ((∃ reason, e = .drawing reason) ∨ ∃ reason, e = .unwritten request.output reason) →
    FoldersAdded (request.output :: Files.parents request.output) t t' := by
  intro e hending he
  cases h with
  | unloaded _ _ => exact .refl t
  | undrawn _ _ => exact .refl t
  | stopped _ _ hstops =>
    cases hending
    exact hstops.foldersAdded he
  | finished _ _ _ => cases hending

theorem Fate.delivers (h : Fate request t ending t') (hcode : ending.exitCode = 0) :
    ∃ report keys options p, ending = .built report ∧ Loads t request keys options ∧
      Plate.build keys options = .ok p ∧ Delivers t request p report t' := by
  cases h with
  | @unloaded e _ he =>
    change e.exitCode = 0 at hcode
    rw [he] at hcode
    cases hcode
  | @undrawn keys options e _ _ =>
    change (Failure.plate e).exitCode = 0 at hcode
    rw [exitCode_plate] at hcode
    split at hcode
    · cases hcode
    · cases hcode
  | @stopped keys options p e _ _ _ hstops =>
    change e.exitCode = 0 at hcode
    rw [hstops.exitCode] at hcode
    cases hcode
  | @finished keys options p report _ hloads hplate hfinishes =>
    exact ⟨report, keys, options, p, rfl, hloads, hplate, hfinishes.delivers⟩

end Outcome

/-- Every build on every tree of files keeps the promise, also when it is run by its arguments. -/
theorem build_outcome (request : BuildRequest) (t : FileTree) :
    Outcome request t (ending request t) (treeAfter request t) ∧
    ∀ arguments, read arguments = .ok (.build request) →
      (run arguments : StateM FileTree Ending) t = (ending request t, treeAfter request t) := by
  have h := fate request t
  refine ⟨?_, fun arguments harguments => run_build harguments t⟩
  exact ⟨h.unread, h.later, h.overflow, h.exitCode, h.untouched, h.onlyFolders, h.delivers⟩

/-- A layout of one key, and options without rounded corners. -/
def sharpTree : FileTree := FileTree.ofFiles [("in/keys.json", "[[\"A\"]]"), ("in/sharp.json",
  "\x7b\"switchFilletRadius\":0,\"stabilizerFilletRadius\":0,\"acousticFilletRadius\":0,\"plateRadius\":0\x7d")]

/-- One output, asked for twice, in a folder of which nothing is there yet. -/
def sharpRequest : BuildRequest := {
  layout := "in/keys.json", options := some "in/sharp.json", output := "out/new", formats := [.json, .json] }

theorem sharpRequest_outcome :
    (∃ report keys options p, ending sharpRequest sharpTree = .built report ∧
      Loads sharpTree sharpRequest keys options ∧ Plate.build keys options = .ok p ∧
      Delivers sharpTree sharpRequest p report (treeAfter sharpRequest sharpTree)) ∧
    ¬∃ keys options, Loads {} sharpRequest keys options :=
  ⟨(build_outcome sharpRequest sharpTree).1.delivers (by decide +kernel),
    (build_outcome sharpRequest {}).1.unread.mp (by decide +kernel)⟩

end KeyboardPlate.Command

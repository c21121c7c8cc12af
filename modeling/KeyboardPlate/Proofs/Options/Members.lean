import KeyboardPlate.Options.Members
import KeyboardPlate.Proofs.Decimal.Text
import KeyboardPlate.Proofs.Json.RoundTrip
import Mathlib.Data.List.Nodup

/-!
# Options given by members

A member sets the option of its name and leaves the others as they are. So the options that are read from
members are the defaults with the values of the members put in, whatever the order of the members and
whatever else stands between them; and all options written as members are read back.
-/

set_option autoImplicit false

namespace KeyboardPlate

/-! ## Settings -/

/-- The value of one option. -/
inductive Setting where
  | decimal (d : Decimal)
  | flag (b : Bool)
  | stabilizer (kind : StabilizerType)
  | acoustic (kind : AcousticType)
deriving DecidableEq

namespace Setting

/-- What the value of a member makes of a setting, if it is a value of the setting's kind. -/
def read? : Setting → Json → Option Setting
  | decimal _, value => (Decimal.ofJson? value).map decimal
  | flag _, .bool b => some (flag b)
  | stabilizer _, .string name => (StabilizerType.ofName? name).map stabilizer
  | acoustic _, .string name => (AcousticType.ofName? name).map acoustic
  | _, _ => none

def toJson : Setting → Json
  | decimal d => .string d.text
  | flag b => .bool b
  | stabilizer kind => .string kind.name
  | acoustic kind => .string kind.name

/-- The setting after the last member of its name. A value of another kind leaves it as it is. -/
def given (members : List (String × Json)) (entry : String × Setting) : String × Setting :=
  (entry.1, ((Json.member? entry.1 members).bind entry.2.read?).getD entry.2)

end Setting

namespace Options

/-- All options by the names of their members. -/
def settings (o : Options) : List (String × Setting) := [
  ("switchHeight", .decimal o.switchHeight),
  ("switchWidth", .decimal o.switchWidth),
  ("switchFilletRadius", .decimal o.switchFilletRadius),
  ("switchDogbone", .flag o.switchDogbone),
  ("switchPattern", .flag o.switchPattern),
  ("switchLineWidth", .decimal o.switchLineWidth),
  ("switchSolderMaskExpansion", .decimal o.switchSolderMaskExpansion),
  ("stabilizerCutoutType", .stabilizer o.stabilizerCutoutType),
  ("stabilizerFilletRadius", .decimal o.stabilizerFilletRadius),
  ("stabilizerPattern", .flag o.stabilizerPattern),
  ("stabilizerLineWidth", .decimal o.stabilizerLineWidth),
  ("stabilizerSolderMaskExpansion", .decimal o.stabilizerSolderMaskExpansion),
  ("acousticCutoutType", .acoustic o.acousticCutoutType),
  ("acousticFilletRadius", .decimal o.acousticFilletRadius),
  ("acousticPattern", .flag o.acousticPattern),
  ("acousticLineWidth", .decimal o.acousticLineWidth),
  ("acousticSolderMaskExpansion", .decimal o.acousticSolderMaskExpansion),
  ("extremeSlot", .flag o.extremeSlot),
  ("slotWidth", .decimal o.slotWidth),
  ("switchHousingWidth", .decimal o.switchHousingWidth),
  ("connectorWidth", .decimal o.connectorWidth),
  ("slotPattern", .flag o.slotPattern),
  ("slotLineWidth", .decimal o.slotLineWidth),
  ("slotSolderMaskExpansion", .decimal o.slotSolderMaskExpansion),
  ("slotPatternRadius", .decimal o.slotPatternRadius),
  ("plateRadius", .decimal o.plateRadius),
  ("platePattern", .flag o.platePattern),
  ("plateLineWidth", .decimal o.plateLineWidth),
  ("plateSolderMaskExpansion", .decimal o.plateSolderMaskExpansion),
  ("platePatternRadius", .decimal o.platePatternRadius),
  ("unitWidth", .decimal o.unitWidth),
  ("unitHeight", .decimal o.unitHeight)]

/-- The names of the members that options have. -/
def memberNames : List String := ({} : Options).settings.map (·.1)

theorem nodup_memberNames : memberNames.Nodup := by decide

theorem map_fst_settings (o : Options) : o.settings.map (·.1) = memberNames := rfl

theorem settings_injective : Function.Injective settings := by
  intro o p h
  cases o
  cases p
  simp only [settings, List.cons.injEq, Prod.mk.injEq, Setting.decimal.injEq, Setting.flag.injEq,
    Setting.stabilizer.injEq, Setting.acoustic.injEq, true_and, and_true] at h
  simp only [Options.mk.injEq]
  exact h

/-! ## What one member does -/

/-- The field reads its member into the setting at one place of the list, which has its name. -/
structure Field.SetsAt (i : Nat) (f : Field) : Prop where
  name : memberNames[i]? = some f.name
  ok : ∀ {value : Json} {set : Options → Options}, f.read value = .ok set → ∀ o : Options, ∃ s s',
    o.settings[i]? = some (f.name, s) ∧ s.read? value = some s' ∧ (set o).settings = o.settings.set i (f.name, s')
  error : ∀ {value : Json} {e : OptionsError}, f.read value = .error e → ∀ (o : Options) {s : Setting},
    o.settings[i]? = some (f.name, s) → s.read? value = none

section
variable {i : Nat} {name : String} (hname : memberNames[i]? = some name)
include hname

theorem setsAt_decimal {get : Options → Decimal} {set : Decimal → Options → Options}
    (hget : ∀ o : Options, o.settings[i]? = some (name, .decimal (get o)))
    (hset : ∀ d (o : Options), (set d o).settings = o.settings.set i (name, .decimal d)) :
    (Field.decimal name get set).SetsAt i where
  name := hname
  ok {value put} h o := by
    dsimp only [Field.decimal] at h
    split at h
    · rename_i d hd
      cases h
      exact ⟨_, _, hget o, by rw [Setting.read?, hd]; rfl, hset d o⟩
    · cases h
  error {value e} h o s hs := by
    obtain rfl : Setting.decimal (get o) = s := by simpa [hget o, Field.decimal] using hs
    dsimp only [Field.decimal] at h
    split at h
    · cases h
    · rename_i hd
      rw [Setting.read?, hd]
      rfl

theorem setsAt_flag {get : Options → Bool} {set : Bool → Options → Options}
    (hget : ∀ o : Options, o.settings[i]? = some (name, .flag (get o)))
    (hset : ∀ b (o : Options), (set b o).settings = o.settings.set i (name, .flag b)) :
    (Field.flag name get set).SetsAt i where
  name := hname
  ok {value put} h o := by
    dsimp only [Field.flag] at h
    split at h
    · rename_i b
      cases h
      exact ⟨_, _, hget o, rfl, hset b o⟩
    · cases h
  error {value e} h o s hs := by
    obtain rfl : Setting.flag (get o) = s := by simpa [hget o, Field.flag] using hs
    dsimp only [Field.flag] at h
    split at h
    · cases h
    · rename_i hvalue
      cases value with
      | bool b => exact absurd rfl (hvalue b)
      | _ => rfl

/-- The setting of a selector is of a kind of its own. -/
theorem setsAt_selector {κ : Type} {parse : String → Except UnsupportedVariant κ} {text : κ → String}
    {get : Options → κ} {set : κ → Options → Options} {setting : κ → Setting}
    (hget : ∀ o : Options, o.settings[i]? = some (name, setting (get o)))
    (hset : ∀ k (o : Options), (set k o).settings = o.settings.set i (name, setting k))
    (hread : ∀ k s, (setting k).read? (.string s) = (parse s).toOption.map setting)
    (hother : ∀ k value, (∀ s, value ≠ .string s) → (setting k).read? value = none) :
    (Field.selector name parse text get set).SetsAt i where
  name := hname
  ok {value put} h o := by
    dsimp only [Field.selector] at h
    split at h
    · split at h
      · rename_i kind hkind
        cases h
        exact ⟨_, _, hget o, by rw [hread, hkind]; rfl, hset kind o⟩
      · cases h
    · cases h
  error {value e} h o s hs := by
    obtain rfl : setting (get o) = s := by simpa [hget o, Field.selector] using hs
    dsimp only [Field.selector] at h
    split at h
    · split at h
      · cases h
      · rename_i hkind
        rw [hread, hkind]
        rfl
    · rename_i hvalue
      exact hother _ _ hvalue

end

theorem read?_stabilizer (kind : StabilizerType) (name : String) :
    (Setting.stabilizer kind).read? (.string name) = (StabilizerType.parse name).toOption.map Setting.stabilizer := by
  unfold StabilizerType.parse
  rw [Setting.read?]
  split
  · rename_i hname
    rw [hname]
    rfl
  · rename_i hname
    rw [hname]
    rfl

theorem read?_acoustic (kind : AcousticType) (name : String) :
    (Setting.acoustic kind).read? (.string name) = (AcousticType.parse name).toOption.map Setting.acoustic := by
  unfold AcousticType.parse
  rw [Setting.read?]
  split
  · rename_i hname
    rw [hname]
    rfl
  · rename_i hname
    rw [hname]
    rfl

theorem read?_stabilizer_other (kind : StabilizerType) (value : Json) (h : ∀ s, value ≠ .string s) :
    (Setting.stabilizer kind).read? value = none := by
  cases value with
  | string s => exact absurd rfl (h s)
  | _ => rfl

theorem read?_acoustic_other (kind : AcousticType) (value : Json) (h : ∀ s, value ≠ .string s) :
    (Setting.acoustic kind).read? value = none := by
  cases value with
  | string s => exact absurd rfl (h s)
  | _ => rfl

theorem setsAt_fields : ∀ p ∈ fields.zipIdx, p.1.SetsAt p.2 := by
  simp only [fields, List.zipIdx_cons, List.zipIdx_nil, List.forall_mem_cons, Nat.zero_add, Nat.reduceAdd]
  and_intros
  all_goals first
    | exact setsAt_decimal rfl (fun _ => rfl) (fun _ _ => rfl)
    | exact setsAt_flag rfl (fun _ => rfl) (fun _ _ => rfl)
    | exact setsAt_selector rfl (fun _ => rfl) (fun _ _ => rfl) read?_stabilizer read?_stabilizer_other
    | exact setsAt_selector rfl (fun _ => rfl) (fun _ _ => rfl) read?_acoustic read?_acoustic_other
    | exact fun _ h => by cases h

theorem field?_eq_none {name : String} (h : field? name = none) : name ∉ memberNames := by
  intro hmem
  have hname : name ∈ fields.map (·.name) := hmem
  obtain ⟨f, hf, rfl⟩ := List.mem_map.mp hname
  have hne := List.find?_eq_none.mp h f hf
  simp at hne

theorem exists_setsAt {name : String} {f : Field} (h : field? name = some f) : f.name = name ∧ ∃ i, f.SetsAt i := by
  refine ⟨by simpa using List.find?_some h, ?_⟩
  obtain ⟨i, hi, hf⟩ := List.mem_iff_getElem.mp (List.mem_of_find?_eq_some h)
  refine ⟨i, setsAt_fields (f, i) ?_⟩
  rw [List.mk_mem_zipIdx_iff_getElem?, List.getElem?_eq_getElem hi, hf]

theorem Field.SetsAt.mem_memberNames {i : Nat} {f : Field} (h : f.SetsAt i) : f.name ∈ memberNames :=
  List.mem_of_getElem? h.name

theorem Field.SetsAt.exists_setting {i : Nat} {f : Field} (h : f.SetsAt i) (o : Options) :
    ∃ s, o.settings[i]? = some (f.name, s) := by
  have hname := h.name
  rw [← map_fst_settings o, List.getElem?_map, Option.map_eq_some_iff] at hname
  obtain ⟨⟨name, s⟩, hs, rfl⟩ := hname
  exact ⟨s, hs⟩

/-- A name stands at one place only. -/
theorem eq_of_getElem? {β : Type} {names : List String} (hnodup : names.Nodup) {entries entries' : List (String × β)}
    (hentries : entries.map (·.1) = names) (hentries' : entries'.map (·.1) = names) {i j : Nat} {name : String}
    {b c : β} (hi : entries[i]? = some (name, b)) (hj : entries'[j]? = some (name, c)) : i = j := by
  have hi : names[i]? = some name := by rw [← hentries, List.getElem?_map, hi]; rfl
  have hj : names[j]? = some name := by rw [← hentries', List.getElem?_map, hj]; rfl
  obtain ⟨hlt, -⟩ := List.getElem?_eq_some_iff.mp hi
  exact (List.getElem?_inj hlt hnodup).mp (hi.trans hj.symm)

/-- To put a value in at the place of a name is to change the entry of that name. -/
theorem set_eq_map {β : Type} {entries : List (String × β)} (hnodup : (entries.map (·.1)).Nodup) {i : Nat}
    {name : String} {b : β} (hi : entries[i]? = some (name, b)) (c : β) :
    entries.set i (name, c) = entries.map fun e => if e.1 = name then (name, c) else e := by
  apply List.ext_getElem?
  intro j
  rw [List.getElem?_map, List.getElem?_set]
  by_cases hj : i = j
  · subst hj
    rw [if_pos rfl, if_pos (List.getElem?_eq_some_iff.mp hi).1, hi]
    simp
  · rw [if_neg hj]
    cases hother : entries[j]? with
    | none => rfl
    | some e =>
      have hne : e.1 ≠ name := by
        rintro rfl
        exact hj (eq_of_getElem? hnodup rfl rfl hi hother)
      simp [hne]

end Options

/-! ## The last member of a name -/

namespace Json
variable {members : List (String × Json)} {name n : String} {value v : Json}

theorem member?_cons : member? name ((n, v) :: members) =
    (member? name members).or (if n = name then some v else none) := by
  unfold member?
  rw [List.reverse_cons, List.find?_append, Option.map_or]
  by_cases h : n = name
  · simp [h]
  · simp [h]

theorem mem_of_member? (h : member? name members = some v) : (name, v) ∈ members := by
  obtain ⟨e, he, rfl⟩ := Option.map_eq_some_iff.mp h
  have hname : e.1 = name := by simpa using List.find?_some he
  rw [← hname]
  exact List.mem_reverse.mp (List.mem_of_find?_eq_some he)

theorem member?_eq_none_iff : member? name members = none ↔ ∀ e ∈ members, e.1 ≠ name := by
  unfold member?
  rw [Option.map_eq_none_iff, List.find?_eq_none]
  simp

end Json

namespace Options

/-! ## Runs over members -/

/-- The members from which options can be read: those of options come once each, and later than none of the
same name that is `seen`, and they have values of their kinds. -/
structure Usable (seen : List String) (members : List (String × Json)) : Prop where
  fresh : ∀ e ∈ members, e.1 ∈ memberNames → e.1 ∉ seen
  nodup : ((members.filter fun e => e.1 ∈ memberNames).map (·.1)).Nodup
  readable : ∀ e ∈ members, ∀ s, (e.1, s) ∈ ({} : Options).settings → (s.read? e.2).isSome

variable {seen : List String} {members : List (String × Json)} {o : Options} {name : String} {value : Json}

theorem mem_memberNames_of_mem {s : Setting} (h : (name, s) ∈ o.settings) : name ∈ memberNames := by
  rw [← map_fst_settings o]
  exact List.mem_map_of_mem h

theorem Usable.cons_iff_of_unknown (h : name ∉ memberNames) : Usable seen ((name, value) :: members) ↔ Usable seen members := by
  have hfilter : (((name, value) :: members).filter fun e => e.1 ∈ memberNames) =
      members.filter fun e => e.1 ∈ memberNames := List.filter_cons_of_neg (by simpa using h)
  constructor
  · rintro ⟨hfresh, hnodup, hreadable⟩
    rw [hfilter] at hnodup
    exact ⟨fun e he => hfresh e (List.mem_cons_of_mem _ he), hnodup, fun e he => hreadable e (List.mem_cons_of_mem _ he)⟩
  · rintro ⟨hfresh, hnodup, hreadable⟩
    refine ⟨fun e he hknown => ?_, by rwa [hfilter], fun e he s hs => ?_⟩
    · rcases List.mem_cons.mp he with rfl | he
      · exact absurd hknown h
      · exact hfresh e he hknown
    · rcases List.mem_cons.mp he with rfl | he
      · exact absurd (mem_memberNames_of_mem hs) h
      · exact hreadable e he s hs

theorem Usable.cons_iff_of_known (h : name ∈ memberNames) : Usable seen ((name, value) :: members) ↔
    name ∉ seen ∧ (∀ s, (name, s) ∈ ({} : Options).settings → (s.read? value).isSome) ∧ Usable (name :: seen) members := by
  have hfilter : (((name, value) :: members).filter fun e => e.1 ∈ memberNames) =
      (name, value) :: members.filter fun e => e.1 ∈ memberNames := List.filter_cons_of_pos (by simpa using h)
  constructor
  · rintro ⟨hfresh, hnodup, hreadable⟩
    rw [hfilter, List.map_cons, List.nodup_cons] at hnodup
    refine ⟨hfresh _ List.mem_cons_self h, hreadable _ List.mem_cons_self, fun e he hknown hseen => ?_, hnodup.2,
      fun e he => hreadable e (List.mem_cons_of_mem _ he)⟩
    rcases List.mem_cons.mp hseen with heq | hseen
    · exact hnodup.1 (List.mem_map.mpr ⟨e, List.mem_filter.mpr ⟨he, by simpa using hknown⟩, heq⟩)
    · exact hfresh e (List.mem_cons_of_mem _ he) hknown hseen
  · rintro ⟨hname, hvalue, hfresh, hnodup, hreadable⟩
    refine ⟨fun e he hknown => ?_, ?_, fun e he => ?_⟩
    · rcases List.mem_cons.mp he with rfl | he
      · exact hname
      · exact fun hseen => hfresh e he hknown (List.mem_cons_of_mem _ hseen)
    · rw [hfilter, List.map_cons, List.nodup_cons]
      refine ⟨fun hmem => ?_, hnodup⟩
      obtain ⟨e, he, heq⟩ := List.mem_map.mp hmem
      obtain ⟨he, hknown⟩ := List.mem_filter.mp he
      exact hfresh e he (by simpa using hknown) (by simp [heq])
    · rcases List.mem_cons.mp he with rfl | he
      · exact hvalue
      · exact hreadable e he

theorem map_given_nil (o : Options) : o.settings.map (Setting.given []) = o.settings :=
  List.map_id'' (fun _ => rfl) _

theorem map_given_cons_of_unknown (h : name ∉ memberNames) :
    o.settings.map (Setting.given ((name, value) :: members)) = o.settings.map (Setting.given members) := by
  refine List.map_congr_left fun e he => ?_
  have hne : name ≠ e.1 := by
    rintro rfl
    exact h (mem_memberNames_of_mem (o := o) (s := e.2) he)
  unfold Setting.given
  rw [Json.member?_cons, if_neg hne, Option.or_none]

/-- A member of a field, and members of which none has its name, change the settings one after the other. -/
theorem map_given_cons {f : Field} {i : Nat} (hf : f.SetsAt i) {set : Options → Options} (hset : f.read value = .ok set)
    (hrest : Json.member? f.name members = none) : o.settings.map (Setting.given ((f.name, value) :: members)) =
      (set o).settings.map (Setting.given members) := by
  obtain ⟨s, s', hs, hread, hsettings⟩ := hf.ok hset o
  have hnodup : (o.settings.map (·.1)).Nodup := nodup_memberNames
  rw [hsettings, set_eq_map hnodup hs, List.map_map]
  refine List.map_congr_left fun e he => ?_
  by_cases hname : e.1 = f.name
  · obtain rfl : e = (f.name, s) :=
      List.inj_on_of_nodup_map hnodup he (List.mem_of_getElem? hs) hname
    simp [Setting.given, Json.member?_cons, hrest, hread]
  · simp [Setting.given, Json.member?_cons, hname, Ne.symm hname]

/-- What a run over members gives: every setting with the value that stands for it. -/
theorem readMembers_eq_ok {p : Options} (h : readMembers seen o members = .ok p) :
    Usable seen members ∧ p.settings = o.settings.map (Setting.given members) := by
  induction members generalizing seen o with
  | nil =>
    cases h
    exact ⟨⟨by simp, List.nodup_nil, by simp⟩, (map_given_nil _).symm⟩
  | cons member members ih =>
    obtain ⟨name, value⟩ := member
    rw [readMembers] at h
    split at h
    · rename_i hname
      have hunknown := field?_eq_none hname
      rw [Usable.cons_iff_of_unknown hunknown, map_given_cons_of_unknown hunknown]
      exact ih h
    · rename_i f hname
      obtain ⟨rfl, i, hf⟩ := exists_setsAt hname
      split at h
      · cases h
      rename_i hseen
      split at h
      · cases h
      rename_i set hset
      obtain ⟨husable, hsettings⟩ := ih h
      have hrest : Json.member? f.name members = none := by
        refine Json.member?_eq_none_iff.mpr fun e he heq => ?_
        exact husable.fresh e he (heq ▸ hf.mem_memberNames) (by simp [heq])
      refine ⟨(Usable.cons_iff_of_known hf.mem_memberNames).mpr ⟨hseen, fun s hs => ?_, husable⟩, ?_⟩
      · obtain ⟨s₀, s', hs₀, hread, -⟩ := hf.ok hset {}
        have heq := List.inj_on_of_nodup_map nodup_memberNames hs (List.mem_of_getElem? hs₀) rfl
        rw [(Prod.mk.inj heq).2, hread]
        rfl
      · rw [map_given_cons hf hset hrest, hsettings]

theorem exists_readMembers (h : Usable seen members) (o : Options) : ∃ p, readMembers seen o members = .ok p := by
  induction members generalizing seen o with
  | nil => exact ⟨o, rfl⟩
  | cons member members ih =>
    obtain ⟨name, value⟩ := member
    rw [readMembers]
    split
    · rename_i hname
      exact ih ((Usable.cons_iff_of_unknown (field?_eq_none hname)).mp h) o
    · rename_i f hname
      obtain ⟨rfl, i, hf⟩ := exists_setsAt hname
      obtain ⟨hseen, hreadable, hrest⟩ := (Usable.cons_iff_of_known hf.mem_memberNames).mp h
      rw [if_neg hseen]
      split
      · rename_i e herror
        obtain ⟨s, hs⟩ := hf.exists_setting {}
        have hsome := hreadable s (List.mem_of_getElem? hs)
        rw [hf.error herror {} hs] at hsome
        cases hsome
      · exact ih hrest _

/-! ## The order of members -/

/-- Every member of options has a value of its option's kind. -/
def Acceptable (members : List (String × Json)) : Prop :=
  ∀ e ∈ members, ∀ s, (e.1, s) ∈ ({} : Options).settings → (s.read? e.2).isSome

/-- The members of options, without the others. -/
def known (members : List (String × Json)) : List (String × Json) := members.filter fun e => e.1 ∈ memberNames

theorem usable_nil_iff : Usable [] members ↔ ((known members).map (·.1)).Nodup ∧ Acceptable members :=
  ⟨fun h => ⟨h.nodup, h.readable⟩, fun h => ⟨by simp, h.1, h.2⟩⟩

/-- A member that comes once is the last of its name. -/
theorem member?_eq_some_iff (h : ((known members).map (·.1)).Nodup) (hname : name ∈ memberNames) :
    Json.member? name members = some value ↔ (name, value) ∈ members := by
  refine ⟨Json.mem_of_member?, fun hmem => ?_⟩
  have hknown : ∀ {v : Json}, (name, v) ∈ members → (name, v) ∈ known members :=
    fun hv => List.mem_filter.mpr ⟨hv, by simpa using hname⟩
  cases hlast : Json.member? name members with
  | none => exact absurd rfl (Json.member?_eq_none_iff.mp hlast _ hmem)
  | some v =>
    have heq := List.inj_on_of_nodup_map h (hknown (Json.mem_of_member? hlast)) (hknown hmem) rfl
    rw [(Prod.mk.inj heq).2]

variable {members' : List (String × Json)}

theorem known_perm (h : members.Perm members') : ((known members).map (·.1)).Perm ((known members').map (·.1)) :=
  (h.filter _).map _

theorem Acceptable.perm (hacceptable : Acceptable members) (h : members.Perm members') : Acceptable members' :=
  fun e he => hacceptable e (h.mem_iff.mpr he)

theorem map_given_perm (hnodup : ((known members).map (·.1)).Nodup) (h : members.Perm members') :
    o.settings.map (Setting.given members') = o.settings.map (Setting.given members) := by
  have hnodup' := (known_perm h).nodup_iff.mp hnodup
  refine List.map_congr_left fun e he => ?_
  have hname : e.1 ∈ memberNames := mem_memberNames_of_mem (o := o) (s := e.2) he
  have hmember : Json.member? e.1 members' = Json.member? e.1 members := by
    ext value
    rw [member?_eq_some_iff hnodup hname, member?_eq_some_iff hnodup' hname]
    exact h.mem_iff.symm
  rw [Setting.given, Setting.given, hmember]

/-! ## All members written back -/

end Options

/-- The setting is not a zero with a sign. -/
def Setting.Unsigned : Setting → Prop
  | decimal d => d.unsignZero = d
  | _ => True

instance (s : Setting) : Decidable s.Unsigned := by
  cases s
  all_goals unfold Setting.Unsigned
  all_goals infer_instance

theorem Decimal.unsignZero_of_ofJson? {value : Json} {d : Decimal} (h : Decimal.ofJson? value = some d) :
    d.unsignZero = d := by
  unfold Decimal.ofJson? at h
  split at h
  · exact unsignZero_of_ofParts? h
  · exact unsignZero_of_readPlain? h
  · exact unsignZero_of_readChars? h
  · cases h

namespace Setting

theorem unsigned_of_read? {s t : Setting} {value : Json} (h : s.read? value = some t) : t.Unsigned := by
  unfold read? at h
  split at h
  · obtain ⟨d, hd, rfl⟩ := Option.map_eq_some_iff.mp h
    exact Decimal.unsignZero_of_ofJson? hd
  · cases h
    trivial
  · obtain ⟨kind, -, rfl⟩ := Option.map_eq_some_iff.mp h
    trivial
  · obtain ⟨kind, -, rfl⟩ := Option.map_eq_some_iff.mp h
    trivial
  · cases h

/-- A setting is read back from what is written for it. -/
theorem read?_toJson {t : Setting} (h : t.Unsigned) : t.read? t.toJson = some t := by
  cases t with
  | decimal d =>
    have hread : Decimal.ofJson? (.string d.text) = some d := by
      rw [Decimal.ofJson?, Decimal.text, String.toList_ofList, Decimal.readChars?_of_readPlain? d.readPlain?_toChars, h]
    rw [toJson, read?, hread]
    rfl
  | flag b => rfl
  | stabilizer kind =>
    rw [toJson, read?, StabilizerType.ofName?_name]
    rfl
  | acoustic kind =>
    rw [toJson, read?, AcousticType.ofName?_name]
    rfl

/-- The kind of a setting alone decides which values it takes. -/
theorem read?_congr {s t : Setting} (h : s.ctorIdx = t.ctorIdx) : s.read? = t.read? := by
  funext value
  cases s with
  | decimal d =>
    cases t with
    | decimal e => rfl
    | _ => cases h
  | flag b =>
    cases t with
    | flag c => cases value <;> rfl
    | _ => cases h
  | stabilizer kind =>
    cases t with
    | stabilizer kind' => cases value <;> rfl
    | _ => cases h
  | acoustic kind =>
    cases t with
    | acoustic kind' => cases value <;> rfl
    | _ => cases h

theorem readable_toJson (t : Setting) : t.toJson.Readable := by
  cases t <;> trivial

end Setting

namespace Options

/-- The members that are written for the options. -/
def written (o : Options) : List (String × Json) := o.settings.map fun e => (e.1, e.2.toJson)

theorem toJson_eq (o : Options) : o.toJson = .object o.written := rfl

variable {o p : Options} {name : String}

/-- Settings of one name are of one kind. -/
theorem read?_eq {s t : Setting} (hs : (name, s) ∈ o.settings) (ht : (name, t) ∈ p.settings) : s.read? = t.read? := by
  obtain ⟨i, hi⟩ := List.mem_iff_getElem?.mp hs
  obtain ⟨j, hj⟩ := List.mem_iff_getElem?.mp ht
  obtain rfl : i = j := eq_of_getElem? nodup_memberNames (map_fst_settings o) (map_fst_settings p) hi hj
  have hkinds : (o.settings.map (·.2.ctorIdx))[i]? = (p.settings.map (·.2.ctorIdx))[i]? := rfl
  rw [List.getElem?_map, List.getElem?_map, hi, hj] at hkinds
  exact Setting.read?_congr (Option.some.inj hkinds)

theorem known_written (o : Options) : known o.written = o.written := by
  refine List.filter_eq_self.mpr fun e he => ?_
  obtain ⟨entry, hentry, rfl⟩ := List.mem_map.mp he
  simpa using mem_memberNames_of_mem (o := o) (s := entry.2) hentry

/-- The options have no zero with a sign. -/
def Unsigned (o : Options) : Prop := ∀ e ∈ o.settings, e.2.Unsigned

theorem acceptable_written (h : o.Unsigned) : Acceptable o.written := by
  intro e he s hs
  obtain ⟨⟨name, t⟩, hentry, rfl⟩ := List.mem_map.mp he
  rw [read?_eq hs hentry, Setting.read?_toJson (h _ hentry)]
  rfl

theorem map_given_written (h : o.Unsigned) (p : Options) : p.settings.map (Setting.given o.written) = o.settings := by
  have hnodup : ((known o.written).map (·.1)).Nodup := by
    rw [known_written]
    exact nodup_memberNames
  apply List.ext_getElem?
  intro i
  have hlength : p.settings.length = o.settings.length := rfl
  rw [List.getElem?_map]
  cases hs : p.settings[i]? with
  | none =>
    have hle := List.getElem?_eq_none_iff.mp hs
    exact (List.getElem?_eq_none_iff.mpr (hlength ▸ hle)).symm
  | some entry =>
    obtain ⟨name, s⟩ := entry
    obtain ⟨⟨name', t⟩, ht⟩ : ∃ entry, o.settings[i]? = some entry :=
      ⟨_, List.getElem?_eq_getElem (hlength ▸ (List.getElem?_eq_some_iff.mp hs).1)⟩
    obtain rfl : name = name' := by
      have hnames : (p.settings.map (·.1))[i]? = (o.settings.map (·.1))[i]? := rfl
      rw [List.getElem?_map, List.getElem?_map, hs, ht] at hnames
      exact Option.some.inj hnames
    have hmem := List.mem_of_getElem? ht
    have hmember : Json.member? name o.written = some t.toJson :=
      (member?_eq_some_iff hnodup (mem_memberNames_of_mem hmem)).mpr (List.mem_map.mpr ⟨_, hmem, rfl⟩)
    rw [ht, Option.map_some, Setting.given, hmember, Option.bind_some, read?_eq (List.mem_of_getElem? hs) hmem,
      Setting.read?_toJson (h _ hmem)]
    rfl

theorem unsigned_default : ({} : Options).Unsigned := by
  have hall : ∀ e ∈ ({} : Options).settings, e.2.Unsigned := by decide
  exact hall

theorem unsigned_of_readMembers {members : List (String × Json)} (h : readMembers [] {} members = .ok o) : o.Unsigned := by
  intro e he
  rw [(readMembers_eq_ok h).2] at he
  obtain ⟨entry, hentry, rfl⟩ := List.mem_map.mp he
  unfold Setting.given
  cases hread : (Json.member? entry.1 members).bind entry.2.read? with
  | none => exact unsigned_default entry hentry
  | some t =>
    obtain ⟨value, -, hvalue⟩ := Option.bind_eq_some_iff.mp hread
    exact Setting.unsigned_of_read? hvalue

theorem membersReadable_written (o : Options) : Json.MembersReadable o.written := by
  have hall : ∀ entries : List (String × Setting), Json.MembersReadable (entries.map fun e => (e.1, e.2.toJson)) := by
    intro entries
    induction entries with
    | nil => trivial
    | cons entry entries ih => exact ⟨entry.2.readable_toJson, ih⟩
  exact hall o.settings

theorem ofJsonText_of_scan {text : String} {members : List (String × Json)} (h : Json.scan text = .object members true) :
    ofJsonText text = readMembers [] {} members := by
  rw [ofJsonText, h, ofScan]
  cases readMembers [] {} members with
  | error e => rfl
  | ok o => rfl

/-- All options written as members are read back, with any white space between the tokens. -/
theorem ofJsonText_render (sp : Json.Spacing) (h : o.Unsigned) :
    ofJsonText (String.ofList (o.toJson.render sp 0)) = .ok o := by
  have hnodup : ((known o.written).map (·.1)).Nodup := by
    rw [known_written]
    exact nodup_memberNames
  rw [toJson_eq, ofJsonText_of_scan (Json.scan_render sp o.membersReadable_written)]
  obtain ⟨p, hp⟩ := exists_readMembers (usable_nil_iff.mpr ⟨hnodup, acceptable_written h⟩) {}
  rw [hp, settings_injective ((readMembers_eq_ok hp).2.trans (map_given_written h {}))]

theorem ofJsonText_compactText (h : o.Unsigned) : ofJsonText o.toJson.compactText = .ok o := by
  rw [Json.compactText, ← Json.render_none _ 0]
  exact ofJsonText_render .none h

theorem ofJsonText_indentedText (h : o.Unsigned) : ofJsonText o.toJson.indentedText = .ok o := by
  rw [Json.indentedText, ← Json.render_lines _ 0]
  exact ofJsonText_render .lines h

/-- An object gives options just if no member of options is repeated and each has a value of its kind. They are
the defaults with those values put in, in whatever order the members come; written with all their members, they
are read again. -/
theorem ofJsonText_object {text : String} {members : List (String × Json)}
    (h : Json.scan text = .object members true) :
    ((∃ o, ofJsonText text = .ok o) ↔ ((known members).map (·.1)).Nodup ∧ Acceptable members) ∧
    ∀ o, ofJsonText text = .ok o →
      o.settings = ({} : Options).settings.map (Setting.given members) ∧
      (∀ other members', Json.scan other = .object members' true → members.Perm members' → ofJsonText other = .ok o) ∧
      o.toJson = .object (o.settings.map fun e => (e.1, e.2.toJson)) ∧
      ofJsonText o.toJson.compactText = .ok o ∧ ofJsonText o.toJson.indentedText = .ok o := by
  rw [ofJsonText_of_scan h]
  refine ⟨⟨?_, fun hmembers => exists_readMembers (usable_nil_iff.mpr hmembers) {}⟩, fun o ho => ?_⟩
  · rintro ⟨o, ho⟩
    exact usable_nil_iff.mp (readMembers_eq_ok ho).1
  obtain ⟨husable, hsettings⟩ := readMembers_eq_ok ho
  obtain ⟨hnodup, hacceptable⟩ := usable_nil_iff.mp husable
  have hunsigned := unsigned_of_readMembers ho
  refine ⟨hsettings, fun other members' hother hperm => ?_, rfl, ofJsonText_compactText hunsigned,
    ofJsonText_indentedText hunsigned⟩
  have hnodup' := (known_perm hperm).nodup_iff.mp hnodup
  obtain ⟨p, hp⟩ := exists_readMembers (usable_nil_iff.mpr ⟨hnodup', hacceptable.perm hperm⟩) {}
  have hsame : p.settings = o.settings := by
    rw [(readMembers_eq_ok hp).2, map_given_perm hnodup hperm, hsettings]
  rw [ofJsonText_of_scan hother, hp, settings_injective hsame]

/-- Members in another order than that of the options, and one that no option has. -/
def someMembers : List (String × Json) :=
  [("unitWidth", .string "19.00"), ("note", .array [.null]), ("slotPattern", .bool true),
    ("stabilizerCutoutType", .string "alps-aek")]

theorem someMembers_options : Json.scan (Json.object someMembers).compactText = .object someMembers true ∧
    ∃ o, ofJsonText (Json.object someMembers).compactText = .ok o ∧
      o = { unitWidth := ⟨false, 1900, 2, by decide, by decide⟩, slotPattern := true, stabilizerCutoutType := .alpsAek } ∧
      o.settings = ({} : Options).settings.map (Setting.given someMembers) ∧
      ofJsonText o.toJson.compactText = .ok o := by
  have hreadable : Json.MembersReadable someMembers := ⟨trivial, ⟨trivial, trivial⟩, trivial, trivial, trivial⟩
  have hscan : Json.scan (Json.object someMembers).compactText = .object someMembers true := by
    rw [Json.compactText, ← Json.render_none _ 0]
    exact Json.scan_render .none hreadable
  have hread : ofJsonText (Json.object someMembers).compactText = .ok
      { unitWidth := ⟨false, 1900, 2, by decide, by decide⟩, slotPattern := true, stabilizerCutoutType := .alpsAek } := by
    rw [ofJsonText_of_scan hscan]
    decide +kernel
  obtain ⟨hsettings, -, -, hcompact, -⟩ := (ofJsonText_object hscan).2 _ hread
  exact ⟨hscan, _, hread, rfl, hsettings, hcompact⟩

end Options

end KeyboardPlate

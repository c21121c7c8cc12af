import KeyboardPlate.Plate.Build
import KeyboardPlate.Proofs.Except
import Mathlib.Data.List.Induction
import Mathlib.Data.List.Nodup
import Mathlib.Data.List.TakeWhile
import Std.Data.String.ToNat

/-!
# Names of drawings

The name of a key's drawing is one of a few words with the number of the key behind it. The words differ
and have no digits, so a name tells both, and no two drawings of a plate share one.
-/

set_option autoImplicit false

namespace KeyboardPlate.Named
variable {β : Type}

/-- Everything under its name with a text behind it. -/
def suffixed (suffix : String) (things : Named β) : Named β :=
  things.map fun (name, thing) => (name ++ suffix, thing)

theorem suffixed_append (suffix : String) (things others : Named β) :
    suffixed suffix (things ++ others) = suffixed suffix things ++ suffixed suffix others :=
  List.map_append

theorem names_append (things others : Named β) : names (things ++ others) = names things ++ names others :=
  List.map_append

theorem names_suffixed (suffix : String) (things : Named β) :
    names (suffixed suffix things) = (names things).map (· ++ suffix) := by
  simp [names, suffixed]

theorem put_of_not_mem {name : String} {things : Named β} (h : name ∉ names things) (thing : β) :
    put name thing things = things ++ [(name, thing)] := by
  induction things with
  | nil => rfl
  | cons entry rest ih =>
    obtain ⟨n, t⟩ := entry
    simp only [names, List.map_cons, List.mem_cons, not_or] at h ih
    rw [put, if_neg (fun e => h.1 e.symm), ih h.2, List.cons_append]

theorem ofEntries_concat (placed : List (String × β)) (entry : String × β) :
    ofEntries (placed ++ [entry]) = put entry.1 entry.2 (ofEntries placed) := by
  unfold ofEntries
  rw [List.foldl_append]
  rfl

/-- Entries under different names all stay, in their order. -/
theorem ofEntries_of_nodup {entries : List (String × β)} (h : (names entries).Nodup) :
    ofEntries entries = entries := by
  induction entries using List.reverseRecOn with
  | nil => rfl
  | append_singleton entries entry ih =>
    rw [names_append, List.nodup_append] at h
    have hnew : entry.1 ∉ names entries := by
      intro hm
      exact h.2.2 entry.1 hm entry.1 (by simp [names]) rfl
    rw [ofEntries_concat, ih h.1]
    exact put_of_not_mem hnew entry.2

end KeyboardPlate.Named

namespace KeyboardPlate

open Named

/-! ## Words -/

/-- The words for the layers of a pattern between two texts. -/
def Pattern.names (before after : String) : List String :=
  ["Top", "Bottom", "TopSolder", "BottomSolder"].map fun layer => before ++ layer ++ after

namespace Plate

def switchWords : List String := "Switch" :: Pattern.names "Switch" ""
def stabilizerWords : List String := "Stabilizer" :: Pattern.names "Stabilizer" ""
def acousticWords : List String := "Acoustic" :: Pattern.names "Acoustic" ""
def slotWords : List String := "ExtremeSlot" :: (Pattern.names "Slot" "" ++ Pattern.names "Slot" "Corner")

/-- The words for the drawings of a key. -/
def keyWords : List String := switchWords ++ stabilizerWords ++ acousticWords ++ slotWords

/-- The names of the drawings that belong to the plate as a whole. -/
def ownNames : List String := "BoundingBox0" :: Pattern.names "Plate" ""

/-- A text without digits. -/
def IsWord (s : String) : Prop := ∀ c ∈ s.toList, c.isDigit = false

instance (s : String) : Decidable (IsWord s) := List.decidableBAll ..

theorem isWord_append {s t : String} (hs : IsWord s) (ht : IsWord t) : IsWord (s ++ t) := by
  intro c hc
  rw [String.toList_append] at hc
  rcases List.mem_append.mp hc with hc | hc
  · exact hs c hc
  · exact ht c hc

theorem isDigit_of_mem_toString {id : Nat} {c : Char} (h : c ∈ (toString id).toList) :
    c.isDigit = true := by
  rw [Nat.toString_eq_repr, Nat.toList_repr] at h
  exact Nat.isDigit_of_mem_toDigits (by omega) (by omega) h

/-- A text of digits alone. -/
def IsNumber (s : String) : Prop := ∀ c ∈ s.toList, c.isDigit = true

theorem isNumber_toString (id : Nat) : IsNumber (toString id) := fun _ => isDigit_of_mem_toString

theorem isNumber_empty : IsNumber "" := fun _ hc => by cases hc

theorem not_mem_number {c : Char} {number : String} (hn : IsNumber number) (hc : c.isDigit = false) :
    c ∉ number.toList := by
  intro hmem
  rw [hn c hmem] at hc
  cases hc

theorem takeWhile_word_append {word number : String} (hw : IsWord word) (hn : IsNumber number) :
    (word ++ number).toList.takeWhile (fun c => !c.isDigit) = word.toList := by
  rw [String.toList_append, List.takeWhile_append_of_pos (fun c hc => by rw [hw c hc]; rfl)]
  have hd : number.toList.takeWhile (fun c => !c.isDigit) = [] := by
    rw [List.takeWhile_eq_nil_iff]
    intro hpos hnot
    rw [Bool.not_eq_true', hn _ (List.get_mem _ _)] at hnot
    cases hnot
  rw [hd, List.append_nil]

/-- A name of a word and a number tells both. -/
theorem word_append_toString_inj {word other : String} (hw : IsWord word) (ho : IsWord other) {i j : Nat}
    (h : word ++ toString i = other ++ toString j) : word = other ∧ i = j := by
  have hword : word = other := by
    rw [← String.toList_inj, ← takeWhile_word_append hw (isNumber_toString i), h,
      takeWhile_word_append ho (isNumber_toString j)]
  refine ⟨hword, ?_⟩
  rw [hword, String.append_right_inj] at h
  exact Nat.repr_injective h

theorem isWord_of_mem : ∀ word ∈ "BoundingBox" :: keyWords, IsWord word := by decide

theorem nodup_words : ("BoundingBox" :: keyWords).Nodup := by decide

/-- The names that drawings of keys with numbers may have. -/
def keyNames (ids : List Nat) : List String := ids.flatMap fun id => keyWords.map (· ++ toString id)

theorem mem_keyNames {ids : List Nat} {name : String} (h : name ∈ keyNames ids) :
    ∃ id ∈ ids, ∃ word ∈ keyWords, name = word ++ toString id := by
  obtain ⟨id, hid, hname⟩ := List.mem_flatMap.mp h
  obtain ⟨word, hword, heq⟩ := List.mem_map.mp hname
  exact ⟨id, hid, word, hword, heq.symm⟩

theorem nodup_keyNames {ids : List Nat} (h : ids.Nodup) : (keyNames ids).Nodup := by
  have hword : ∀ word ∈ keyWords, IsWord word := fun word hw => isWord_of_mem word (.tail _ hw)
  refine List.nodup_flatMap.mpr ⟨fun id _ => ?_, h.imp fun {i j} hij => ?_⟩
  · refine (List.Nodup.of_cons nodup_words).map_on ?_
    intro word hw other ho heq
    exact (word_append_toString_inj (hword word hw) (hword other ho) heq).1
  · intro name hi hj
    obtain ⟨word, hw, rfl⟩ := List.mem_map.mp hi
    obtain ⟨other, ho, heq⟩ := List.mem_map.mp hj
    exact hij (word_append_toString_inj (hword other ho) (hword word hw) heq).2.symm

theorem isWord_of_mem_plateNames : ∀ name ∈ Pattern.names "Plate" "", IsWord name := by decide

theorem not_isWord_append_toString (word : String) (id : Nat) : ¬ IsWord (word ++ toString id) := by
  intro h
  obtain ⟨c, hc⟩ : ∃ c, c ∈ (toString id).toList := by
    apply List.exists_mem_of_ne_nil
    simp [Nat.toString_eq_repr]
  have hdigit := isDigit_of_mem_toString hc
  have hnot := h c (by rw [String.toList_append]; exact List.mem_append_right _ hc)
  rw [hdigit] at hnot
  cases hnot

theorem nodup_names {ids : List Nat} (h : ids.Nodup) : (keyNames ids ++ ownNames).Nodup := by
  refine List.nodup_append.mpr ⟨nodup_keyNames h, by decide, ?_⟩
  intro name hkey other hown heq
  subst heq
  obtain ⟨id, -, word, hword, rfl⟩ := mem_keyNames hkey
  -- The outline's name is a word and a number, but not a word of a key. The layers have no number.
  rcases List.mem_cons.mp hown with hbox | hlayer
  · have hbox' : word ++ toString id = "BoundingBox" ++ toString 0 := hbox
    have hw : word = "BoundingBox" :=
      (word_append_toString_inj (isWord_of_mem word (.tail _ hword)) (by decide) hbox').1
    exact (List.nodup_cons.mp nodup_words).1 (hw ▸ hword)
  · exact not_isWord_append_toString word id (isWord_of_mem_plateNames _ hlayer)

end Plate

end KeyboardPlate

import KeyboardPlate.Json.Printer
import KeyboardPlate.Json.Reader
import KeyboardPlate.Proofs.Double.Text
import Mathlib.Data.List.TakeDrop

/-!
# Numbers in a JSON text

A number is read the same alone and in front of a text that cannot go on with it.
-/

set_option autoImplicit false

namespace KeyboardPlate.Json

open Double

variable {β γ : Type} {s t : List Char}

/-- Whether a number may go on with the character. -/
def isNumberChar (c : Char) : Bool := isNumeralChar c || c == 'E'

/-- No number goes on with the text. -/
def Ends (t : List Char) : Prop := ∀ c rest, t = c :: rest → isNumberChar c = false

theorem ends_nil : Ends [] := fun _ _ h => by cases h

theorem ends_cons {c : Char} (h : isNumberChar c = false) (rest : List Char) : Ends (c :: rest) := by
  intro d _ heq
  cases heq
  exact h

theorem Ends.ne_cons (ht : Ends t) {c : Char} (hc : isNumberChar c = true) (rest : List Char) :
    t ≠ c :: rest := by
  intro heq
  rw [ht c rest heq] at hc
  cases hc

/-! ## Readers of the start of a text -/

/-- A value at the start of a text, and the rest. -/
abbrev Reader (β : Type) := List Char → Option (β × List Char)

/-- Reads nothing. -/
def give (b : β) : Reader β := fun s => some (b, s)

def andThen (read : Reader β) (more : β → Reader γ) : Reader γ :=
  fun s => (read s).bind fun p => more p.1 p.2

/-- Reads on behind a character, if the text starts with it. -/
def behind (c : Char) (read other : Reader β) : Reader β
  | [] => other []
  | d :: rest => if d = c then read rest else other (d :: rest)

/-- The reader leaves an end of the text, and finds the same in front of what does not go on with a
numeral. -/
def Local (read : Reader β) : Prop :=
  ∀ s b r, read s = some (b, r) → r <:+ s ∧ ∀ t, Ends t → read (s ++ t) = some (b, r ++ t)

theorem local_give (b : β) : Local (give b) := by
  intro s c r h
  cases h
  exact ⟨List.suffix_refl _, fun t _ => rfl⟩

theorem local_none : Local (fun _ => none : Reader β) := fun _ _ _ h => by cases h

theorem Local.andThen {read : Reader β} {more : β → Reader γ} (hread : Local read)
    (hmore : ∀ b, Local (more b)) : Local (andThen read more) := by
  intro s c r h
  obtain ⟨⟨b, s'⟩, hb, hc⟩ := Option.bind_eq_some_iff.mp h
  obtain ⟨hs', happend⟩ := hread s b s' hb
  obtain ⟨hr, hend⟩ := hmore b s' c r hc
  refine ⟨hr.trans hs', fun t ht => ?_⟩
  unfold Json.andThen
  rw [happend t ht]
  exact hend t ht

theorem Local.behind {c : Char} (hc : isNumberChar c = true) {read other : Reader β}
    (hread : Local read) (hother : Local other) : Local (behind c read other) := by
  intro s b r h
  cases s with
  | nil =>
    obtain ⟨hr, happend⟩ := hother [] b r h
    refine ⟨hr, fun t ht => ?_⟩
    cases t with
    | nil => exact happend [] ht
    | cons d rest =>
      have hd : d ≠ c := fun heq => ht.ne_cons hc rest (by rw [heq])
      rw [List.nil_append, Json.behind, if_neg hd]
      exact happend _ ht
  | cons d rest =>
    rw [Json.behind] at h
    split at h
    · rename_i hd
      obtain ⟨hr, happend⟩ := hread rest b r h
      refine ⟨hr.trans (List.suffix_cons ..), fun t ht => ?_⟩
      rw [List.cons_append, Json.behind, if_pos hd]
      exact happend t ht
    · rename_i hd
      obtain ⟨hr, happend⟩ := hother (d :: rest) b r h
      refine ⟨hr, fun t ht => ?_⟩
      rw [List.cons_append, Json.behind, if_neg hd]
      exact happend t ht

/-! ## The parts of a number -/

theorem isNumberChar_of_digit {c : Char} (h : '0' ≤ c ∧ c ≤ '9') : isNumberChar c = true := by
  have hdigit : c.isDigit = true := by
    simpa [Char.isDigit, Char.le_def, UInt32.le_iff_toNat_le] using h
  simp [isNumberChar, isNumeralChar, hdigit]

def isDecimalDigit (c : Char) : Bool := decide ('0' ≤ c ∧ c ≤ '9')

theorem spanDigits_eq (s : List Char) :
    spanDigits s = (s.takeWhile isDecimalDigit, s.dropWhile isDecimalDigit) :=
  List.span_eq_takeWhile_dropWhile ..

theorem spanDigits_append (s : List Char) (ht : Ends t) :
    spanDigits (s ++ t) = ((spanDigits s).1, (spanDigits s).2 ++ t) := by
  simp only [spanDigits_eq]
  induction s with
  | nil =>
    cases t with
    | nil => rfl
    | cons c rest =>
      have hc : isDecimalDigit c = false := by
        rw [isDecimalDigit, decide_eq_false_iff_not]
        exact fun hc => ht.ne_cons (isNumberChar_of_digit hc) rest rfl
      simp [hc]
  | cons c s ih =>
    rw [Prod.mk.injEq] at ih
    obtain ⟨htake, hdrop⟩ := ih
    cases hc : isDecimalDigit c with
    | true => simp [hc, htake, hdrop]
    | false => simp [hc]

def readDigits : Reader (List Char) := fun s => some (spanDigits s)

theorem local_readDigits : Local readDigits := by
  intro s ds r h
  have hspan : spanDigits s = (ds, r) := Option.some.inj h
  refine ⟨?_, fun t ht => ?_⟩
  · rw [spanDigits_eq, Prod.mk.injEq] at hspan
    rw [← hspan.2]
    exact List.dropWhile_suffix _
  · unfold readDigits
    rw [spanDigits_append s ht, hspan]

/-- Digits, of which there is at least one. -/
def readSomeDigits : Reader (List Char) :=
  andThen readDigits fun ds => if ds = [] then fun _ => none else give ds

/-- The power of ten behind its mark. -/
def readExponent : Reader (Option (Bool × List Char)) :=
  andThen (behind '-' (give true) (behind '+' (give false) (give false))) fun down =>
    andThen readSomeDigits fun ds => give (some (down, ds))

/-- A number from its power on. -/
def readPower (negative : Bool) (whole : List Char) (fraction : Option (List Char)) : Reader Json :=
  andThen (behind 'e' readExponent (behind 'E' readExponent (give none))) fun power =>
    give (numberOfParts negative whole fraction power)

/-- A number from its fraction on. -/
def readFraction (negative : Bool) (whole : List Char) : Reader Json :=
  andThen (behind '.' (andThen readSomeDigits fun ds => give (some ds)) (give none)) fun fraction =>
    readPower negative whole fraction

/-- A number, part by part. -/
def readNumber : Reader Json :=
  andThen (behind '-' (give true) (give false)) fun negative =>
    andThen readDigits fun whole =>
      if whole = [] ∨ (whole.head? = some '0' ∧ whole ≠ ['0']) then fun _ => none
      else readFraction negative whole

theorem local_readSomeDigits : Local readSomeDigits := by
  refine local_readDigits.andThen fun ds => ?_
  split
  · exact local_none
  · exact local_give ds

theorem local_readExponent : Local readExponent := by
  refine Local.andThen ?_ fun down => local_readSomeDigits.andThen fun ds => local_give _
  exact .behind (by decide) (local_give _) (.behind (by decide) (local_give _) (local_give _))

theorem local_readNumber : Local readNumber := by
  refine Local.andThen (.behind (by decide) (local_give _) (local_give _)) fun negative => ?_
  refine local_readDigits.andThen fun whole => ?_
  split
  · exact local_none
  · refine Local.andThen ?_ fun fraction => Local.andThen ?_ fun power => local_give _
    · exact .behind (by decide) (local_readSomeDigits.andThen fun ds => local_give _) (local_give _)
    · exact .behind (by decide) local_readExponent (.behind (by decide) local_readExponent (local_give _))

theorem behind_cons (c : Char) (read other : Reader β) (rest : List Char) :
    behind c read other (c :: rest) = read rest :=
  if_pos rfl

theorem behind_of_ne {c : Char} (h : ∀ rest, s ≠ c :: rest) (read other : Reader β) :
    behind c read other s = other s := by
  cases s with
  | nil => rfl
  | cons d rest =>
    have hd : d ≠ c := fun heq => h rest (by rw [heq])
    rw [behind, if_neg hd]

theorem readSomeDigits_eq (s : List Char) :
    readSomeDigits s = if (spanDigits s).1 = [] then none else some (spanDigits s) := by
  unfold readSomeDigits readDigits andThen
  by_cases h : (spanDigits s).1 = []
  · simp [h]
  · simp [h, give]

theorem readExponent_eq (s : List Char) : readExponent s =
    (let (down, s) := match s with
      | '-' :: rest => (true, rest)
      | '+' :: rest => (false, rest)
      | _ => (false, s)
    if (spanDigits s).1 = [] then none else some (some (down, (spanDigits s).1), (spanDigits s).2)) := by
  have hdigits : ∀ (down : Bool) (s : List Char), andThen readSomeDigits (fun ds => give (some (down, ds))) s =
      if (spanDigits s).1 = [] then none else some (some (down, (spanDigits s).1), (spanDigits s).2) := by
    intro down s
    unfold andThen
    rw [readSomeDigits_eq]
    split
    · rfl
    · rfl
  split
  rename_i down rest heq
  rw [← hdigits]
  unfold readExponent
  rw [andThen]
  split at heq
  · cases heq
    rw [behind_cons]
    rfl
  · cases heq
    rw [behind_of_ne (by simp), behind_cons]
    rfl
  · cases heq
    rename_i hminus hplus
    rw [behind_of_ne hminus, behind_of_ne hplus]
    rfl

/-- The value of the parts of a number, and the rest. -/
def ofParts (p : Bool × List Char × Option (List Char) × Option (Bool × List Char) × List Char) :
    Json × List Char :=
  (numberOfParts p.1 p.2.1 p.2.2.1 p.2.2.2.1, p.2.2.2.2)

theorem map_power (negative : Bool) (whole : List Char) (fraction : Option (List Char)) (s : List Char) :
    Option.map ofParts (match s with
      | 'e' :: rest => readExponent rest >>= fun p => pure (negative, whole, fraction, p.1, p.2)
      | 'E' :: rest => readExponent rest >>= fun p => pure (negative, whole, fraction, p.1, p.2)
      | _ => pure (negative, whole, fraction, none, s)) = readPower negative whole fraction s := by
  have hmap : ∀ x : Option (Option (Bool × List Char) × List Char),
      Option.map ofParts (x >>= fun p => pure (negative, whole, fraction, p.1, p.2)) =
        x.bind fun p => give (numberOfParts negative whole fraction p.1) p.2 := by
    intro x
    cases x with
    | none => rfl
    | some p => rfl
  unfold readPower
  rw [andThen]
  split
  · rw [behind_cons]
    exact hmap _
  · rw [behind_of_ne (by simp), behind_cons]
    exact hmap _
  · rename_i he hE
    rw [behind_of_ne he, behind_of_ne hE]
    rfl

theorem readNumberParts?_map (s : List Char) : (readNumberParts? s).map ofParts = readNumber s := by
  unfold readNumberParts?
  split
  rename_i negative s' hminus
  split
  rename_i whole s'' hwhole
  have hsign : behind '-' (give true) (give false) s = some (negative, s') := by
    split at hminus
    · cases hminus
      rw [behind_cons]
      rfl
    · rename_i hne
      cases hminus
      rw [behind_of_ne hne]
      rfl
  have hnumber : readNumber s =
      if whole = [] ∨ (whole.head? = some '0' ∧ whole ≠ ['0']) then none
      else readFraction negative whole s'' := by
    unfold readNumber readDigits
    rw [andThen, hsign, Option.bind_some, andThen, hwhole, Option.bind_some]
    split
    · rfl
    · rfl
  rw [hnumber]
  by_cases hbad : whole = [] ∨ (whole.head? = some '0' ∧ whole ≠ ['0'])
  · rw [if_pos hbad, if_pos hbad]
    rfl
  · rw [if_neg hbad, if_neg hbad]
    have hpower := map_power negative whole
    simp only [readExponent_eq] at hpower
    unfold readFraction
    rw [andThen]
    dsimp only
    split
    · rw [behind_cons, andThen, readSomeDigits_eq]
      by_cases hds : (spanDigits ‹List Char›).1 = []
      · rw [if_pos hds, if_pos hds]
        rfl
      · rw [if_neg hds, if_neg hds]
        exact hpower _ _
    · rename_i hne
      rw [behind_of_ne hne]
      exact hpower _ _

/-! ## Numbers that read back -/

theorem skipSpace_cons {c : Char} (h : isSpace c = false) (s : List Char) : skipSpace (c :: s) = c :: s := by
  rw [skipSpace, List.dropWhile_cons_of_neg (by simp [h])]

theorem isSpace_of_isNumeralChar {c : Char} (h : isNumeralChar c = true) : isSpace c = false := by
  rw [Bool.eq_false_iff]
  intro hspace
  simp only [isSpace, Bool.or_eq_true, beq_iff_eq, or_assoc] at hspace
  rcases hspace with rfl | rfl | rfl | rfl <;> cases h

theorem read?_numeral {c : Char} (h : isNumeralChar c = true) (fuel : Nat) (s : List Char) :
    read? (fuel + 1) (c :: s) = readNumber (c :: s) := by
  rw [← readNumberParts?_map, read?, skipSpace_cons (isSpace_of_isNumeralChar h)]
  split
  all_goals first
    | rfl
    | rename_i heq
      cases heq
      cases h

theorem skipSpace_numeral (h : IsNumeral s) : skipSpace s = s := by
  cases s with
  | nil => rfl
  | cons c s => exact skipSpace_cons (isSpace_of_isNumeralChar (h c (by simp))) s

/-- The text of the number is a numeral that stands for it. -/
structure ReadsBack (n : JsonNumber) : Prop where
  isNumeral : IsNumeral (numberText n).toList
  parse : parse? (numberText n) = some (.number n)

theorem ReadsBack.exists_cons {n : JsonNumber} (h : ReadsBack n) :
    ∃ c s, (numberText n).toList = c :: s ∧ isNumeralChar c = true := by
  cases hs : (numberText n).toList with
  | nil =>
    have hparse := h.parse
    rw [parse?, hs] at hparse
    cases hparse
  | cons c s => exact ⟨c, s, rfl, h.isNumeral c (by simp [hs])⟩

/-- In front of anything that does not go on with it, the number is read. -/
theorem ReadsBack.read? {n : JsonNumber} (h : ReadsBack n) (fuel : Nat) (ht : Ends t) :
    read? (fuel + 1) ((numberText n).toList ++ t) = some (.number n, t) := by
  obtain ⟨c, s, hs, hc⟩ := h.exists_cons
  have hparse := h.parse
  have hnumeral := h.isNumeral
  rw [parse?, hs, fuelFor, read?_numeral hc] at hparse
  rw [hs] at hnumeral ⊢
  split at hparse
  · rename_i value rest hread
    obtain ⟨hrest, happend⟩ := local_readNumber _ _ _ hread
    split at hparse
    · rename_i hspace
      cases hparse
      rw [skipSpace_numeral (hnumeral.of_subset hrest.subset)] at hspace
      rw [List.cons_append, read?_numeral hc, ← List.cons_append, happend t ht, hspace]
      rfl
    · cases hparse
  · cases hparse

end KeyboardPlate.Json

import KeyboardPlate.Json.Relaxed
import KeyboardPlate.Proofs.Json.Numeral

/-!
# A relaxed JSON text between brackets

A closing bracket behind a text does not change how its first value is read, and stands behind it afterwards,
unless the text ends in a line comment that swallows the bracket. So a text that is a document of its own and
can also be read between brackets is, between brackets, an array of that one value.
-/

set_option autoImplicit false

namespace KeyboardPlate.Json.Relaxed

variable {s r : List Char} {c : Char} {v : Json}

/-! ## White space and comments -/

/-- The rest of a text and that of the text with a closing bracket behind it. -/
def Closes (r r' : List Char) : Prop := r' = r ++ [']'] ∨ r = [] ∧ r' = []

theorem Closes.of_cons {r' : List Char} (h : Closes (c :: r) r') : r' = c :: r ++ [']'] := by
  rcases h with h | ⟨h, -⟩
  · exact h
  · cases h

theorem skip_cons (hslash : c ≠ '/') (rest : List Char) :
    skip (c :: rest) = if isSpace c then skip rest else c :: rest := by
  rw [skip.eq_def]
  split
  · rename_i h
    cases h
  · rename_i h
    cases h
    exact absurd rfl hslash
  · rename_i h
    cases h
    exact absurd rfl hslash
  · rename_i h
    cases h
    rfl

/-- A slash that starts no comment is left standing. -/
theorem skip_slash (hline : ∀ t, s ≠ '/' :: t) (hblock : ∀ t, s ≠ '*' :: t) : skip ('/' :: s) = '/' :: s := by
  rw [skip.eq_def]
  split
  · rename_i h
    cases h
  · rename_i h
    cases h
    exact absurd rfl (hline _)
  · rename_i h
    cases h
    exact absurd rfl (hblock _)
  · rename_i h
    cases h
    rfl

/-- A character that is no white space and starts no comment is left standing. -/
theorem skip_mark (hline : ∀ t, c = '/' → s = '/' :: t → False) (hblock : ∀ t, c = '/' → s = '*' :: t → False)
    (hspace : ¬isSpace c) : skip (c :: s) = c :: s := by
  by_cases hslash : c = '/'
  · subst hslash
    exact skip_slash (fun t ht => hline t rfl ht) (fun t ht => hblock t rfl ht)
  · rw [skip_cons hslash, if_neg hspace]

/-- A bracket behind a text does not turn its start into the second mark of a comment. -/
theorem append_ne_cons {d : Char} (hd : d ≠ ']') (h : ∀ t, s ≠ d :: t) (t : List Char) : s ++ [']'] ≠ d :: t := by
  intro heq
  cases s with
  | nil =>
    cases heq
    exact hd rfl
  | cons e s =>
    cases heq
    exact h s rfl

theorem closes_skip (s : List Char) : Closes (skip s) (skip (s ++ [']'])) := by
  refine skip.induct (fun s => Closes (skip s) (skip (s ++ [']'])))
    (fun s => Option.Rel Closes (skipBlock? s) (skipBlock? (s ++ [']'])))
    (fun s => Closes (skipLine s) (skipLine (s ++ [']']))) ?_ ?_ ?_ ?_ ?_ ?_ ?_ ?_ ?_ ?_ ?_ s
  · exact .inl rfl
  · intro rest ih
    exact ih
  · intro rest ih
    change Closes ((skipBlock? rest).getD _) ((skipBlock? (rest ++ [']'])).getD _)
    revert ih
    generalize skipBlock? rest = o, skipBlock? (rest ++ [']']) = o'
    intro ih
    cases ih with
    | none => exact .inl rfl
    | some hcloses => exact hcloses
  · intro c rest hline hblock hspace ih
    have hslash : c ≠ '/' := by
      rintro rfl
      exact absurd hspace (by decide)
    rw [List.cons_append, skip_cons hslash, skip_cons hslash, if_pos hspace, if_pos hspace]
    exact ih
  · intro c rest hline hblock hspace
    have hline' : ∀ t, c = '/' → rest ++ [']'] = '/' :: t → False := fun t hc =>
      append_ne_cons (by decide) (fun t ht => hline t hc ht) t
    have hblock' : ∀ t, c = '/' → rest ++ [']'] = '*' :: t → False := fun t hc =>
      append_ne_cons (by decide) (fun t ht => hblock t hc ht) t
    rw [List.cons_append, skip_mark hline hblock hspace, skip_mark hline' hblock' hspace]
    exact .inl rfl
  · exact .none
  · intro rest ih
    exact .some ih
  · intro c rest hclose ih
    have hclose' : ∀ t, c = '*' → rest ++ [']'] = '/' :: t → False := fun t hc =>
      append_ne_cons (by decide) (fun t ht => hclose t hc ht) t
    rw [List.cons_append, skipBlock?.eq_3 c rest hclose, skipBlock?.eq_3 c _ hclose']
    exact ih
  · exact .inr ⟨rfl, rfl⟩
  · intro c rest hend ih
    rw [List.cons_append, skipLine.eq_2, skipLine.eq_2, if_pos hend, if_pos hend]
    exact ih
  · intro c rest hend ih
    rw [List.cons_append, skipLine.eq_2, skipLine.eq_2, if_neg hend, if_neg hend]
    exact ih

theorem skip_append_of_cons (h : skip s = c :: r) : skip (s ++ [']']) = c :: r ++ [']'] := by
  have hcloses := closes_skip s
  rw [h] at hcloses
  exact hcloses.of_cons

/-- What is left after skipping starts with nothing to skip. -/
theorem skip_skip (s : List Char) : skip (skip s) = skip s := by
  refine skip.induct (fun s => skip (skip s) = skip s) (fun s => ∀ r ∈ skipBlock? s, skip r = r)
    (fun s => skip (skipLine s) = skipLine s) ?_ ?_ ?_ ?_ ?_ ?_ ?_ ?_ ?_ ?_ ?_ s
  · rfl
  · intro rest ih
    exact ih
  · intro rest ih
    change skip ((skipBlock? rest).getD _) = (skipBlock? rest).getD _
    cases h : skipBlock? rest with
    | none =>
      change (skipBlock? rest).getD _ = _
      rw [h]
    | some r => exact ih r h
  · intro c rest hline hblock hspace ih
    have hslash : c ≠ '/' := by
      rintro rfl
      exact absurd hspace (by decide)
    rw [skip_cons hslash, if_pos hspace]
    exact ih
  · intro c rest hline hblock hspace
    have hskip := skip_mark hline hblock hspace
    rw [hskip, hskip]
  · intro r hr
    cases hr
  · intro rest ih r hr
    cases hr
    exact ih
  · intro c rest hclose ih
    rw [skipBlock?.eq_3 c rest hclose]
    exact ih
  · rfl
  · intro c rest hend ih
    rw [skipLine.eq_2, if_pos hend]
    exact ih
  · intro c rest hend ih
    rw [skipLine.eq_2, if_neg hend]
    exact ih

/-! ## Strings and names -/

/-- What is read of a text is read in front of a closing bracket, too. -/
def Stable {β : Type} (read : Reader β) : Prop :=
  ∀ s b r, read s = some (b, r) → read (s ++ [']']) = some (b, r ++ [']'])

theorem stable_readPieces? {quote : Char} (hquote : quote ≠ '\\') : Stable (readPieces? quote) := by
  intro s
  induction s using readPieces?.induct quote with
  | case1 =>
    intro p r h
    cases h
  | case2 rest ih => exact ih
  | case3 a b c d rest ih =>
    intro p r h
    rw [readPieces?.eq_3] at h
    obtain ⟨n, hn, h⟩ := Option.bind_eq_some_iff.mp h
    obtain ⟨⟨p', r'⟩, hread, h⟩ := Option.bind_eq_some_iff.mp h
    cases h
    simp only [List.cons_append]
    rw [readPieces?.eq_3, hn, ih p' r hread]
    rfl
  | case4 a b rest ih =>
    intro p r h
    rw [readPieces?.eq_4] at h
    obtain ⟨n, hn, h⟩ := Option.bind_eq_some_iff.mp h
    obtain ⟨⟨p', r'⟩, hread, h⟩ := Option.bind_eq_some_iff.mp h
    cases h
    simp only [List.cons_append]
    rw [readPieces?.eq_4, hn, ih p' r hread]
    rfl
  | case5 e rest hjoin hunit hbyte hbad ih =>
    intro p r h
    rw [readPieces?.eq_5 _ _ _ hjoin hunit hbyte, if_pos hbad] at h
    cases h
  | case6 e rest hjoin hunit hbyte hgood ih =>
    intro p r h
    rw [readPieces?.eq_5 _ _ _ hjoin hunit hbyte, if_neg hgood] at h
    obtain ⟨⟨p', r'⟩, hread, h⟩ := Option.bind_eq_some_iff.mp h
    have hjoin' : ∀ t, e = '\r' → rest ++ [']'] = '\n' :: t → False := fun t he =>
      append_ne_cons (by decide) (fun t ht => hjoin t he ht) t
    simp only [List.cons_append]
    rw [readPieces?.eq_5 _ _ _ hjoin' (fun _ _ _ _ _ he => absurd (.inl he) hgood)
      (fun _ _ _ he => absurd (.inr (.inl he)) hgood), if_neg hgood, ih p' r' hread]
    change (if isLineEnd e = true then _ else _) = _ at h
    change (if isLineEnd e = true then _ else _) = _
    by_cases hend : isLineEnd e = true
    · rw [if_pos hend] at h ⊢
      cases h
      rfl
    · rw [if_neg hend] at h ⊢
      split at h
      · rename_i hzero
        rw [if_pos hzero]
        cases h
        rfl
      · rename_i hzero
        rw [if_neg hzero]
        cases h
        rfl
  | case7 rest hjoin hunit hbyte hescape =>
    intro p r h
    rw [readPieces?.eq_6 _ _ _ hjoin hunit hbyte hescape, if_pos rfl] at h
    cases h
    rw [List.cons_append, readPieces?.eq_6 _ _ _ (fun _ hc => absurd hc hquote)
      (fun _ _ _ _ _ hc => absurd hc hquote) (fun _ _ _ hc => absurd hc hquote) (fun _ _ hc => absurd hc hquote),
      if_pos rfl]
  | case8 c rest hjoin hunit hbyte hescape hend hbad =>
    intro p r h
    rw [readPieces?.eq_6 _ _ _ hjoin hunit hbyte hescape, if_neg hend, if_pos hbad] at h
    cases h
  | case9 c rest hjoin hunit hbyte hescape hend hgood ih =>
    intro p r h
    rw [readPieces?.eq_6 _ _ _ hjoin hunit hbyte hescape, if_neg hend, if_neg hgood] at h
    obtain ⟨⟨p', r'⟩, hread, h⟩ := Option.bind_eq_some_iff.mp h
    cases h
    have hc : c ≠ '\\' := fun hc => hgood (.inr hc)
    rw [List.cons_append, readPieces?.eq_6 _ _ _ (fun _ he => absurd he hc) (fun _ _ _ _ _ he => absurd he hc)
      (fun _ _ _ he => absurd he hc) (fun _ _ he => absurd he hc), if_neg hend, if_neg hgood, ih p' r hread]
    rfl

theorem stable_readString? {quote : Char} (hquote : quote ≠ '\\') : Stable (readString? quote) := by
  intro s v r h
  obtain ⟨⟨pieces, rest⟩, hread, h⟩ := Option.bind_eq_some_iff.mp h
  obtain ⟨chars, hchars, h⟩ := Option.bind_eq_some_iff.mp h
  cases h
  rw [readString?, stable_readPieces? hquote s pieces r hread]
  change (joinPieces? pieces).bind _ = _
  rw [hchars]
  rfl

/-- A name without quotes goes on behind a backslash, so it has to end before one. -/
theorem readNamePieces?_append (first : Bool) (s : List Char) : ∀ p r, readNamePieces? first s = some (p, r) →
    (∀ t, r ≠ '\\' :: t) → readNamePieces? first (s ++ [']']) = some (p, r ++ [']']) := by
  induction first, s using readNamePieces?.induct with
  | case1 first a b c d rest ih =>
    intro p r h hr
    rw [readNamePieces?.eq_1] at h
    obtain ⟨n, hn, h⟩ := Option.bind_eq_some_iff.mp h
    obtain ⟨⟨p', r'⟩, hread, h⟩ := Option.bind_eq_some_iff.mp h
    cases h
    simp only [List.cons_append]
    rw [readNamePieces?.eq_1, hn, ih p' r hread hr]
    rfl
  | case2 first c rest hunit hletter ih =>
    intro p r h hr
    rw [readNamePieces?.eq_2 _ _ _ hunit, if_pos hletter] at h
    obtain ⟨⟨p', r'⟩, hread, h⟩ := Option.bind_eq_some_iff.mp h
    cases h
    have hc : c ≠ '\\' := by
      rintro rfl
      cases first with
      | false => exact absurd hletter (by decide +kernel)
      | true => exact absurd hletter (by decide +kernel)
    rw [List.cons_append, readNamePieces?.eq_2 _ _ _ (fun _ _ _ _ _ he => absurd he hc), if_pos hletter,
      ih p' r hread hr]
    rfl
  | case3 c rest hunit hletter =>
    intro p r h hr
    rw [readNamePieces?.eq_2 _ _ _ hunit, if_neg hletter] at h
    cases h
  | case4 first c rest hunit hletter hfirst =>
    intro p r h hr
    rw [readNamePieces?.eq_2 _ _ _ hunit, if_neg hletter, if_neg hfirst] at h
    cases h
    have hc : c ≠ '\\' := fun hc => hr rest (by rw [hc])
    rw [List.cons_append, readNamePieces?.eq_2 _ _ _ (fun _ _ _ _ _ he => absurd he hc), if_neg hletter,
      if_neg hfirst]
  | case5 =>
    intro p r h
    cases h
  | case6 first hfirst =>
    intro p r h hr
    rw [readNamePieces?.eq_3, if_neg hfirst] at h
    cases h
    cases first with
    | true => exact absurd rfl hfirst
    | false =>
      rw [List.nil_append, readNamePieces?.eq_2 _ _ _ (fun _ _ _ _ _ he => by cases he)]
      rfl

/-- The name of some pieces, if a colon stands behind them. -/
def named? (p : List TextPiece × List Char) : Option (String × List Char) := do
  let name ← joinPieces? p.1
  match skip p.2 with
  | ':' :: rest => some (String.ofList name, rest)
  | _ => none

theorem named?_append {pieces : List TextPiece} {b : String} (h : named? (pieces, s) = some (b, r)) :
    (∀ t, s ≠ '\\' :: t) ∧ named? (pieces, s ++ [']']) = some (b, r ++ [']']) := by
  obtain ⟨name, hname, h⟩ := Option.bind_eq_some_iff.mp h
  dsimp only at h
  split at h
  · rename_i rest hcolon
    cases h
    constructor
    · rintro t rfl
      rw [skip_cons (by decide), if_neg (by decide)] at hcolon
      cases hcolon
    · unfold named?
      rw [hname, skip_append_of_cons hcolon]
      rfl
  · cases h

theorem stable_readName? : Stable readName? := by
  intro s b r h
  unfold readName? at h ⊢
  split at h
  · rename_i t
    obtain ⟨⟨pieces, rest⟩, hread, h⟩ := Option.bind_eq_some_iff.mp h
    obtain ⟨-, hnamed⟩ := named?_append h
    change (readPieces? '"' (t ++ [']'])).bind named? = _
    rw [stable_readPieces? (by decide) _ _ _ hread]
    exact hnamed
  · rename_i t
    obtain ⟨⟨pieces, rest⟩, hread, h⟩ := Option.bind_eq_some_iff.mp h
    obtain ⟨-, hnamed⟩ := named?_append h
    change (readPieces? '\'' (t ++ [']'])).bind named? = _
    rw [stable_readPieces? (by decide) _ _ _ hread]
    exact hnamed
  · rename_i hdouble hsingle
    obtain ⟨⟨pieces, rest⟩, hread, h⟩ := Option.bind_eq_some_iff.mp h
    obtain ⟨hrest, hnamed⟩ := named?_append h
    split
    · rename_i t heq
      exact absurd heq (append_ne_cons (by decide) (fun t ht => hdouble t ht) t)
    · rename_i t heq
      exact absurd heq (append_ne_cons (by decide) (fun t ht => hsingle t ht) t)
    · change (readNamePieces? _ _).bind named? = _
      rw [readNamePieces?_append true s _ _ hread hrest]
      exact hnamed

/-! ## Numbers -/

theorem ends_bracket : Ends [']'] := ends_cons (by decide) []

/-- The sign of a power, and the rest. -/
def powerSign (s : List Char) : Bool × List Char :=
  match s with
  | '-' :: t => (true, t)
  | '+' :: t => (false, t)
  | t => (false, t)

theorem powerSign_append (s : List Char) :
    powerSign (s ++ [']']) = ((powerSign s).1, (powerSign s).2 ++ [']']) := by
  unfold powerSign
  split
  · rename_i t heq
    cases s with
    | nil => cases heq
    | cons c s =>
      cases heq
      rfl
  · rename_i t heq
    cases s with
    | nil => cases heq
    | cons c s =>
      cases heq
      rfl
  · rename_i hminus hplus
    split
    · exact absurd rfl (hminus _)
    · exact absurd rfl (hplus _)
    · rfl

theorem readPower_cons (e : Char) (s : List Char) : readPower (e :: s) =
    if e = 'e' ∨ e = 'E' then
      if (spanDigits (powerSign s).2).1 = [] then (none, e :: s)
      else (some (if (powerSign s).1 then -(natOfDigits (spanDigits (powerSign s).2).1 : Int)
        else natOfDigits (spanDigits (powerSign s).2).1), (spanDigits (powerSign s).2).2)
    else (none, e :: s) := rfl

theorem readPower_append (s : List Char) :
    readPower (s ++ [']']) = ((readPower s).1, (readPower s).2 ++ [']']) := by
  cases s with
  | nil => rfl
  | cons e s =>
    rw [List.cons_append, readPower_cons, readPower_cons, powerSign_append, spanDigits_append _ ends_bracket]
    split
    · split
      · rfl
      · rfl
    · rfl

theorem takeWhile_hex_append (s : List Char) :
    (s ++ [']']).takeWhile (fun c => (hexValue? c).isSome) = s.takeWhile fun c => (hexValue? c).isSome := by
  induction s with
  | nil => rfl
  | cons c s ih => simp only [List.cons_append, List.takeWhile_cons, ih]

theorem dropWhile_hex_append (s : List Char) :
    (s ++ [']']).dropWhile (fun c => (hexValue? c).isSome) =
      (s.dropWhile fun c => (hexValue? c).isSome) ++ [']'] := by
  induction s with
  | nil => rfl
  | cons c s ih =>
    simp only [List.cons_append, List.dropWhile_cons, ih]
    split
    · rfl
    · rfl

theorem stable_readHex? : Stable readHex? := by
  intro s v r h
  unfold readHex? at h ⊢
  rw [takeWhile_hex_append, dropWhile_hex_append]
  by_cases hnone : (s.takeWhile fun c => (hexValue? c).isSome) = []
  · rw [if_pos hnone] at h
    cases h
  · rw [if_neg hnone] at h ⊢
    obtain ⟨n, hn, h⟩ := Option.bind_eq_some_iff.mp h
    change (natOfHex? _).bind _ = _
    rw [hn]
    change (if n < 4294967296 then _ else _) = _
    split at h
    · rename_i hlt
      cases h
      rw [if_pos hlt]
    · cases h

theorem isHex_append (s : List Char) : isHex (s ++ [']']) = isHex s := by
  unfold isHex
  split
  · rename_i x d t heq
    match s, heq with
    | [c, y], heq =>
      cases heq
      exact Bool.and_false _
    | c :: y :: e :: s, heq =>
      cases heq
      rfl
  · rename_i hne
    split
    · exact absurd rfl (hne _ _ _)
    · rfl

/-- A number from the end of its whole part on. -/
def afterWhole? (negative : Bool) (whole s : List Char) : Option (Json × List Char) :=
  match s with
  | '.' :: rest =>
    (double? negative whole (spanDigits rest).1 ((readPower (spanDigits rest).2).1.getD 0)).map
      fun n => (n, (readPower (spanDigits rest).2).2)
  | rest =>
    match readPower rest with
    | (some power, rest) => (double? negative whole [] power).map fun n => (n, rest)
    | (none, rest) =>
      let n : Int := if negative then -natOfDigits whole else natOfDigits whole
      if -9223372036854775808 ≤ n ∧ n < 9223372036854775808 then some (number (.int n), rest) else none

theorem stable_afterWhole? (negative : Bool) (whole : List Char) : Stable (afterWhole? negative whole) := by
  intro s v r h
  unfold afterWhole? at h ⊢
  split at h
  · rename_i rest
    simp only [List.cons_append, spanDigits_append rest ends_bracket, readPower_append]
    obtain ⟨n, hn, heq⟩ := Option.map_eq_some_iff.mp h
    cases heq
    rw [hn]
    rfl
  · rename_i hpoint
    split
    · rename_i t heq
      exact absurd heq (append_ne_cons (by decide) (fun t ht => hpoint t ht) t)
    · rw [readPower_append]
      split at h
      · rename_i power rest hpower
        rw [hpower]
        obtain ⟨n, hn, heq⟩ := Option.map_eq_some_iff.mp h
        cases heq
        simp only [hn]
        rfl
      · rename_i rest hpower
        rw [hpower]
        dsimp only at h ⊢
        generalize (if negative = true then (-natOfDigits whole : Int) else natOfDigits whole) = n at h ⊢
        by_cases hfits : -9223372036854775808 ≤ n ∧ n < 9223372036854775808
        · rw [if_pos hfits] at h ⊢
          cases h
          rfl
        · rw [if_neg hfits] at h
          cases h

theorem readUnsigned?_point (negative : Bool) (s : List Char) : readUnsigned? negative ('.' :: s) =
    if (spanDigits s).1 = [] then none
    else (double? negative [] (spanDigits s).1 ((readPower (spanDigits s).2).1.getD 0)).map
      fun n => (n, (readPower (spanDigits s).2).2) := rfl

theorem readUnsigned?_digit {negative : Bool} (hpoint : c ≠ '.') (s : List Char) :
    readUnsigned? negative (c :: s) = if (spanDigits (c :: s)).1 = [] then none
    else if c = '0' then afterWhole? negative ['0'] s
    else afterWhole? negative (spanDigits (c :: s)).1 (spanDigits (c :: s)).2 := by
  unfold readUnsigned?
  split
  · rename_i heq
    cases heq
    exact absurd rfl hpoint
  · rename_i heq
    cases heq
    by_cases hc : c = '0'
    · subst hc
      rfl
    · simp only [if_neg hc]
      rfl
  · rename_i heq
    cases heq

/-- Whether a number without its sign may start with the character. -/
def startsUnsigned (c : Char) : Bool := c == '.' || isDecimalDigit c

theorem stable_readUnsigned? (negative : Bool) : Stable (readUnsigned? negative) := by
  intro s v r h
  cases s with
  | nil => cases h
  | cons c s =>
    by_cases hpoint : c = '.'
    · subst hpoint
      rw [readUnsigned?_point] at h
      rw [List.cons_append, readUnsigned?_point, spanDigits_append s ends_bracket, readPower_append]
      split at h
      · cases h
      · rename_i hdigits
        obtain ⟨n, hn, heq⟩ := Option.map_eq_some_iff.mp h
        cases heq
        simp only [if_neg hdigits, hn]
        rfl
    · rw [readUnsigned?_digit hpoint] at h
      rw [List.cons_append, readUnsigned?_digit hpoint, ← List.cons_append, spanDigits_append _ ends_bracket]
      split at h
      · cases h
      · rename_i hdigits
        rw [if_neg hdigits]
        split at h
        · rename_i hzero
          rw [if_pos hzero]
          exact stable_afterWhole? negative _ _ _ _ h
        · rename_i hzero
          rw [if_neg hzero]
          exact stable_afterWhole? negative _ _ _ _ h

theorem readUnsigned?_starts {negative : Bool} (h : readUnsigned? negative s = some (v, r)) :
    ∃ c t, s = c :: t ∧ startsUnsigned c := by
  cases s with
  | nil => cases h
  | cons c t =>
    refine ⟨c, t, rfl, ?_⟩
    by_cases hpoint : c = '.'
    · subst hpoint
      rfl
    · rw [readUnsigned?_digit hpoint] at h
      cases hdigit : isDecimalDigit c with
      | true => simp [startsUnsigned, hdigit]
      | false =>
        rw [spanDigits_eq, List.takeWhile_cons_of_neg (by simp [hdigit]), if_pos rfl] at h
        cases h

/-- The text behind a word for what is no number. -/
def word? (s : List Char) : Option (List Char) :=
  match s with
  | 'I' :: 'n' :: 'f' :: 'i' :: 'n' :: 'i' :: 't' :: 'y' :: rest => some rest
  | 'N' :: 'a' :: 'N' :: rest => some rest
  | _ => none

theorem word?_append (h : word? s = some r) : word? (s ++ [']']) = some (r ++ [']']) := by
  unfold word? at h
  split at h
  · cases h
    rfl
  · cases h
    rfl
  · cases h

theorem word?_cons (h : c = 'I' ∨ c = 'N' → False) (s : List Char) : word? (c :: s) = none := by
  unfold word?
  split
  · rename_i heq
    cases heq
    exact absurd (.inl rfl) h
  · rename_i heq
    cases heq
    exact absurd (.inr rfl) h
  · rfl

theorem readNumber?_plus (s : List Char) :
    readNumber? ('+' :: s) = if isHex s then none else readUnsigned? false s := rfl

theorem readNumber?_minus (s : List Char) : readNumber? ('-' :: s) = match word? s with
    | some rest => some (null, rest)
    | none => if isHex s then none else readUnsigned? true s := rfl

theorem readNumber?_cons (hplus : c ≠ '+') (hminus : c ≠ '-') (s : List Char) :
    readNumber? (c :: s) = match word? (c :: s) with
    | some rest => some (null, rest)
    | none => if isHex (c :: s) then readHex? ((c :: s).drop 2) else readUnsigned? false (c :: s) := by
  unfold readNumber?
  split
  · rename_i heq
    cases heq
    exact absurd rfl hplus
  · rename_i heq
    cases heq
    exact absurd rfl hminus
  · rfl

theorem isHex_starts (h : isHex s) : ∃ x t, s = '0' :: x :: t := by
  unfold isHex at h
  split at h
  · exact ⟨_, _, rfl⟩
  · cases h

/-- A text that goes on with digits does not become a word in front of a bracket. -/
theorem word?_append_of_readUnsigned? {negative : Bool} (h : readUnsigned? negative s = some (v, r)) :
    word? (s ++ [']']) = none := by
  obtain ⟨c, t, rfl, hc⟩ := readUnsigned?_starts h
  apply word?_cons
  rintro (rfl | rfl)
  · cases hc
  · cases hc

theorem stable_readNumber? : Stable readNumber? := by
  intro s v r h
  cases s with
  | nil => cases h
  | cons c s =>
    by_cases hplus : c = '+'
    · subst hplus
      rw [readNumber?_plus] at h
      rw [List.cons_append, readNumber?_plus, isHex_append]
      split at h
      · cases h
      · rename_i hhex
        rw [if_neg hhex]
        exact stable_readUnsigned? false _ _ _ h
    by_cases hminus : c = '-'
    · subst hminus
      rw [readNumber?_minus] at h
      rw [List.cons_append, readNumber?_minus, isHex_append]
      split at h
      · rename_i rest hword
        cases h
        rw [word?_append hword]
      · split at h
        · cases h
        · rename_i hhex
          rw [word?_append_of_readUnsigned? h, if_neg hhex]
          exact stable_readUnsigned? true _ _ _ h
    rw [readNumber?_cons hplus hminus] at h
    rw [List.cons_append, readNumber?_cons hplus hminus, ← List.cons_append, isHex_append]
    split at h
    · rename_i rest hword
      cases h
      rw [word?_append hword]
    · split at h
      · rename_i hhex
        obtain ⟨x, t, ht⟩ := isHex_starts hhex
        cases ht
        rw [List.cons_append, word?_cons (by decide)]
        dsimp only
        rw [if_pos hhex]
        exact stable_readHex? t v r h
      · rename_i hhex
        rw [word?_append_of_readUnsigned? h, if_neg hhex]
        exact stable_readUnsigned? false _ _ _ h

/-- Whether a number may start with the character. -/
def startsNumber (c : Char) : Bool := c == '+' || c == '-' || c == 'I' || c == 'N' || startsUnsigned c

theorem readNumber?_starts (h : readNumber? s = some (v, r)) : ∃ c t, s = c :: t ∧ startsNumber c := by
  cases s with
  | nil => cases h
  | cons c s =>
    refine ⟨c, s, rfl, ?_⟩
    by_contra hc
    simp only [startsNumber, Bool.or_eq_true, beq_iff_eq, not_or] at hc
    obtain ⟨⟨⟨⟨hplus, hminus⟩, hI⟩, hN⟩, hunsigned⟩ := hc
    rw [readNumber?_cons hplus hminus, word?_cons (by simp [hI, hN])] at h
    dsimp only at h
    split at h
    · rename_i hhex
      obtain ⟨x, t, ht⟩ := isHex_starts hhex
      cases ht
      exact hunsigned (by decide)
    · obtain ⟨d, t, ht, hd⟩ := readUnsigned?_starts h
      cases ht
      exact hunsigned hd

/-! ## Values -/

theorem read?_number {t : List Char} (hc : startsNumber c) (fuel : Nat) (hs : skip s = c :: t) :
    read? (fuel + 1) s = readNumber? (c :: t) := by
  rw [read?, hs]
  split
  all_goals first
    | rfl
    | rename_i heq
      cases heq
      cases hc

/-- With more fuel and in front of a bracket, a value is read the same. -/
def ValueStable (fuel : Nat) : Prop :=
  ∀ s v r, read? fuel s = some (v, r) → ∀ k, read? (fuel + k) (s ++ [']']) = some (v, r ++ [']'])

def ItemsStable (fuel : Nat) : Prop :=
  ∀ first s items r, readItems? fuel first s = some (items, r) →
    ∀ k, readItems? (fuel + k) first (s ++ [']']) = some (items, r ++ [']'])

def MembersStable (fuel : Nat) : Prop :=
  ∀ first s members r, readMembers? fuel first s = some (members, r) →
    ∀ k, readMembers? (fuel + k) first (s ++ [']']) = some (members, r ++ [']'])

theorem ValueStable.succ {fuel : Nat} (hitems : ItemsStable fuel) (hmembers : MembersStable fuel) :
    ValueStable (fuel + 1) := by
  intro s v r h k
  rw [Nat.add_right_comm]
  rw [read?] at h
  split at h
  · rename_i hs
    cases h
    rw [read?, skip_append_of_cons hs]
    rfl
  · rename_i hs
    cases h
    rw [read?, skip_append_of_cons hs]
    rfl
  · rename_i hs
    cases h
    rw [read?, skip_append_of_cons hs]
    rfl
  · rename_i hs
    rw [read?, skip_append_of_cons hs]
    exact stable_readString? (by decide) _ _ _ h
  · rename_i hs
    rw [read?, skip_append_of_cons hs]
    exact stable_readString? (by decide) _ _ _ h
  · rename_i rest hs
    obtain ⟨⟨items, rest'⟩, hread, heq⟩ := Option.map_eq_some_iff.mp h
    cases heq
    rw [read?, skip_append_of_cons hs]
    change (readItems? (fuel + k) true (rest ++ [']'])).map _ = _
    rw [hitems true rest items r hread k]
    rfl
  · rename_i rest hs
    obtain ⟨⟨members, rest'⟩, hread, heq⟩ := Option.map_eq_some_iff.mp h
    cases heq
    rw [read?, skip_append_of_cons hs]
    change (readMembers? (fuel + k) true (rest ++ [']'])).map _ = _
    rw [hmembers true rest members r hread k]
    rfl
  · obtain ⟨c, t, hs, hc⟩ := readNumber?_starts h
    rw [hs] at h
    rw [read?_number hc _ (skip_append_of_cons hs)]
    exact stable_readNumber? _ _ _ h

/-- The parts of an array or an object up to its end, where `more` reads a part and the parts behind it. -/
def parts? {β : Type} (close : Char) (first : Bool) (more : Reader (List β)) : Reader (List β) := fun s =>
  match skip s with
  | [] => none
  | c :: t =>
    if c = close then some ([], t)
    else if first then more (c :: t)
    else if c = ',' then
      match skip t with
      | [] => none
      | d :: u => if d = close then some ([], u) else more (d :: u)
    else none

def moreItems? (fuel : Nat) : Reader (List Json) := fun s => do
  let (item, rest) ← read? fuel s
  let (items, rest) ← readItems? fuel false rest
  return (item :: items, rest)

def moreMembers? (fuel : Nat) : Reader (List (String × Json)) := fun s => do
  let (name, rest) ← readName? s
  let (value, rest) ← read? fuel rest
  let (members, rest) ← readMembers? fuel false rest
  return ((name, value) :: members, rest)

theorem read?_nil (fuel : Nat) : read? fuel [] = none := by
  cases fuel with
  | zero => rfl
  | succ fuel => rfl

theorem readItems?_eq (fuel : Nat) (first : Bool) (s : List Char) :
    readItems? (fuel + 1) first s = parts? ']' first (moreItems? fuel) s := by
  have hnil : moreItems? fuel [] = none := by
    rw [moreItems?, read?_nil]
    rfl
  have hskip := skip_skip s
  rw [readItems?, parts?]
  cases first with
  | true => grind [moreItems?]
  | false => grind [moreItems?]

theorem readMembers?_eq (fuel : Nat) (first : Bool) (s : List Char) :
    readMembers? (fuel + 1) first s = parts? '\x7d' first (moreMembers? fuel) s := by
  have hnil : moreMembers? fuel [] = none := rfl
  have hskip := skip_skip s
  rw [readMembers?, parts?]
  cases first with
  | true => grind [moreMembers?]
  | false => grind [moreMembers?]

theorem parts?_append {β : Type} {close : Char} {first : Bool} {more more' : Reader (List β)}
    (hmore : ∀ s b r, more s = some (b, r) → more' (s ++ [']']) = some (b, r ++ [']'])) (b : List β)
    (h : parts? close first more s = some (b, r)) :
    parts? close first more' (s ++ [']']) = some (b, r ++ [']']) := by
  unfold parts? at h
  split at h
  · cases h
  · rename_i c t hs
    unfold parts?
    rw [skip_append_of_cons hs]
    dsimp only [List.cons_append]
    split at h
    · rename_i hclose
      cases h
      rw [if_pos hclose]
    rename_i hclose
    rw [if_neg hclose]
    split at h
    · rename_i hfirst
      rw [if_pos hfirst]
      exact hmore _ _ _ h
    rename_i hfirst
    rw [if_neg hfirst]
    split at h
    · rename_i hcomma
      rw [if_pos hcomma]
      split at h
      · cases h
      · rename_i d u ht
        rw [skip_append_of_cons ht]
        dsimp only [List.cons_append]
        split at h
        · rename_i hd
          cases h
          rw [if_pos hd]
        · rename_i hd
          rw [if_neg hd]
          exact hmore _ _ _ h
    · cases h

theorem ItemsStable.succ {fuel : Nat} (hvalue : ValueStable fuel) (hitems : ItemsStable fuel) :
    ItemsStable (fuel + 1) := by
  intro first s items r h k
  rw [readItems?_eq] at h
  rw [Nat.add_right_comm, readItems?_eq]
  refine parts?_append ?_ items h
  intro s items r h
  obtain ⟨⟨item, rest⟩, hitem, h⟩ := Option.bind_eq_some_iff.mp h
  obtain ⟨⟨more, rest'⟩, hmore, h⟩ := Option.bind_eq_some_iff.mp h
  cases h
  rw [moreItems?, hvalue s item rest hitem k]
  change (readItems? (fuel + k) false (rest ++ [']'])).bind _ = _
  rw [hitems false rest more r hmore k]
  rfl

theorem MembersStable.succ {fuel : Nat} (hvalue : ValueStable fuel) (hmembers : MembersStable fuel) :
    MembersStable (fuel + 1) := by
  intro first s members r h k
  rw [readMembers?_eq] at h
  rw [Nat.add_right_comm, readMembers?_eq]
  refine parts?_append ?_ members h
  intro s members r h
  obtain ⟨⟨name, rest⟩, hname, h⟩ := Option.bind_eq_some_iff.mp h
  obtain ⟨⟨value, rest'⟩, hread, h⟩ := Option.bind_eq_some_iff.mp h
  obtain ⟨⟨more, rest''⟩, hmore, h⟩ := Option.bind_eq_some_iff.mp h
  cases h
  rw [moreMembers?, stable_readName? s name rest hname]
  change (read? (fuel + k) (rest ++ [']'])).bind _ = _
  rw [hvalue rest value rest' hread k]
  change (readMembers? (fuel + k) false (rest' ++ [']'])).bind _ = _
  rw [hmembers false rest' more r hmore k]
  rfl

/-- One step of fuel is enough for one step of reading, and what was read stays the same. -/
theorem stable_of_fuel (fuel : Nat) : ValueStable fuel ∧ ItemsStable fuel ∧ MembersStable fuel := by
  induction fuel with
  | zero =>
    refine ⟨?_, ?_, ?_⟩
    · intro s v r h
      cases h
    · intro first s items r h
      cases h
    · intro first s members r h
      cases h
  | succ fuel ih =>
    obtain ⟨hvalue, hitems, hmembers⟩ := ih
    exact ⟨.succ hitems hmembers, hitems.succ hvalue, hmembers.succ hvalue⟩

/-! ## Documents -/

theorem read?_skip (fuel : Nat) (s : List Char) : read? fuel (skip s) = read? fuel s := by
  cases fuel with
  | zero => rfl
  | succ fuel => rw [read?, read?, skip_skip]

theorem read?_starts {fuel : Nat} (h : read? fuel s = some (v, r)) : ∃ c t, skip s = c :: t ∧ c ≠ ']' := by
  cases hs : skip s with
  | nil =>
    rw [← read?_skip, hs, read?_nil] at h
    cases h
  | cons c t =>
    refine ⟨c, t, rfl, ?_⟩
    rintro rfl
    cases fuel with
    | zero => cases h
    | succ fuel =>
      rw [read?, hs] at h
      obtain ⟨d, u, heq, hd⟩ := readNumber?_starts h
      cases heq
      cases hd

theorem fuelFor_bracketed (s : List Char) : fuelFor ('[' :: (s ++ [']'])) = fuelFor s + 4 + 1 + 1 := by
  simp only [fuelFor, List.length_cons, List.length_append, List.length_nil]
  omega

/-- What stands between brackets starts with the value that the text alone starts with, and nothing but the
closing bracket may follow it. -/
theorem readItems?_bracketed {fuel : Nat} {items : List Json} {r' : List Char}
    (hread : read? fuel s = some (v, r)) (hr : skip r = [])
    (h : readItems? (fuel + 4 + 1) true (s ++ [']']) = some (items, r')) : items = [v] := by
  obtain ⟨c, t, hs, hc⟩ := read?_starts hread
  have hitem : read? (fuel + 4) (c :: t ++ [']']) = some (v, r ++ [']']) := by
    rw [← skip_append_of_cons hs, read?_skip]
    exact (stable_of_fuel fuel).1 s v r hread 4
  rw [readItems?_eq, parts?, skip_append_of_cons hs] at h
  change (if c = ']' then _ else moreItems? (fuel + 4) (c :: t ++ [']'])) = _ at h
  rw [if_neg hc, moreItems?, hitem] at h
  obtain ⟨_, hv, h⟩ := Option.bind_eq_some_iff.mp h
  cases hv
  obtain ⟨⟨more, rest⟩, hmore, heq⟩ := Option.bind_eq_some_iff.mp h
  cases heq
  change readItems? (fuel + 3 + 1) false (r ++ [']']) = _ at hmore
  rw [readItems?_eq, parts?] at hmore
  have hcloses := closes_skip r
  rw [hr] at hcloses
  rcases hcloses with hbracket | ⟨-, hnone⟩
  · rw [hbracket] at hmore
    cases hmore
    rfl
  · rw [hnone] at hmore
    cases hmore

/-- Brackets do not help a text that starts with something other than a value. -/
theorem parse?_bracketed_eq_none {c : Char} (hc : c ≠ ']') {s : List Char}
    (hskip : skip (c :: (s ++ [']'])) = c :: (s ++ [']'])) (hnone : ∀ fuel, read? fuel (c :: (s ++ [']'])) = none) :
    parse? ("[" ++ String.ofList (c :: s) ++ "]") = none := by
  have htext : ("[" ++ String.ofList (c :: s) ++ "]").toList = '[' :: (c :: s ++ [']']) := by simp
  have hitems : ∀ fuel, readItems? (fuel + 1) true (c :: s ++ [']']) = none := fun fuel => by
    rw [List.cons_append, readItems?_eq, parts?, hskip]
    change (if c = ']' then _ else moreItems? fuel (c :: (s ++ [']']))) = none
    rw [if_neg hc, moreItems?, hnone]
    rfl
  have hread : read? (fuelFor (c :: s) + 4 + 1 + 1) ('[' :: (c :: s ++ [']'])) = none := by
    change (readItems? (fuelFor (c :: s) + 4 + 1) true (c :: s ++ [']'])).map _ = none
    rw [hitems]
    rfl
  rw [parse?, htext, fuelFor_bracketed, hread]

/-- A text that is a document can be read between brackets as the array of its value only. -/
theorem parse?_bracketed {text : String} {value row : Json} (hrow : parse? text = some row)
    (h : parse? ("[" ++ text ++ "]") = some value) : value = .array [row] := by
  have htext : ("[" ++ text ++ "]").toList = '[' :: (text.toList ++ [']']) := by simp
  unfold parse? at hrow h
  split at hrow
  · rename_i v r hread
    split at hrow
    · rename_i hr
      cases hrow
      rw [htext, fuelFor_bracketed] at h
      split at h
      · rename_i w r' hwhole
        obtain ⟨⟨items, rest⟩, hitems, heq⟩ := Option.map_eq_some_iff.mp hwhole
        cases heq
        have hone := readItems?_bracketed hread hr hitems
        subst hone
        split at h
        · cases h
          rfl
        · cases h
      · cases h
    · cases hrow
  · cases hrow

end KeyboardPlate.Json.Relaxed

import KeyboardPlate.Proofs.Json.Numeral

/-!
# Reading what was written

Both forms of a JSON text are read back as the value they were written from, whatever its strings are.
Between the tokens there may be any white space.
-/

set_option autoImplicit false

namespace KeyboardPlate.Json

open Double

/-! ## Strings -/

/-- The piece stands for the character. -/
def Stands (p : TextPiece) (c : Char) : Prop := ∀ ps, joinPieces? (p :: ps) = (joinPieces? ps).map (c :: ·)

theorem stands_char (c : Char) : Stands (.char c) c := fun _ => rfl

theorem stands_unit {n : Nat} (h : n < 32) : Stands (.unit n) (Char.ofNat n) := by
  have hsurrogate : ¬ (0xD800 ≤ n ∧ n < 0xE000) := by omega
  intro ps
  cases ps with
  | nil => simp [joinPieces?, hsurrogate]
  | cons p ps =>
    cases p with
    | char c =>
      simp only [joinPieces?, if_neg hsurrogate, Option.map_map]
      rfl
    | unit k => simp only [joinPieces?, if_neg (show ¬ (0xD800 ≤ n ∧ n < 0xDC00) by omega),
        if_neg (show ¬ (0xDC00 ≤ n ∧ n < 0xE000) by omega)]

theorem natOfHex?_hexPair : ∀ n < 32, natOfHex? ['0', '0', Nat.digitChar (n / 16 % 16), Nat.digitChar (n % 16)] = some n := by
  decide

theorem readPieces?_escape {e d : Char} (h : simpleEscape? e = some d) (rest : List Char) :
    readPieces? ('\\' :: e :: rest) = (readPieces? rest).bind fun q => some (.char d :: q.1, q.2) := by
  have hu : e ≠ 'u' := by
    rintro rfl
    cases h
  rw [readPieces?, h]
  · rfl
  · intro a b c d rest heq
    exact absurd heq hu

theorem readPieces?_unit {n : Nat} (h : n < 32) (rest : List Char) :
    readPieces? ('\\' :: 'u' :: '0' :: '0' :: (hexPair n ++ rest)) =
      (readPieces? rest).bind fun q => some (.unit n :: q.1, q.2) := by
  rw [hexPair, List.cons_append, List.cons_append, List.nil_append, readPieces?, natOfHex?_hexPair n h]
  rfl

theorem readPieces?_plain {c : Char} (hquote : c ≠ '"') (hslash : c ≠ '\\') (hc : 32 ≤ c.toNat) (rest : List Char) :
    readPieces? (c :: rest) = (readPieces? rest).bind fun q => some (.char c :: q.1, q.2) := by
  rw [readPieces?, if_neg (by simp [hslash]; omega)]
  · rfl
  · exact hquote
  · intro a b d e rest heq
    exact absurd heq hslash
  · intro e rest heq
    exact absurd heq hslash

/-- What is written for a character is read as a piece that stands for it. -/
theorem exists_piece (c : Char) : ∃ p, Stands p c ∧ ∀ rest,
    readPieces? (escapeChar c ++ rest) = (readPieces? rest).bind fun q => some (p :: q.1, q.2) := by
  have hsimple : ∀ {e : Char}, simpleEscape? e = some c → ∃ p, Stands p c ∧ ∀ rest,
      readPieces? (['\\', e] ++ rest) = (readPieces? rest).bind fun q => some (p :: q.1, q.2) :=
    fun he => ⟨_, stands_char c, readPieces?_escape he⟩
  have hcode : ∀ {n : Nat}, c.toNat = n → c = Char.ofNat n := fun hn => by rw [← hn, Char.ofNat_toNat]
  unfold escapeChar
  split
  · rename_i h
    exact hsimple (by rw [h]; rfl)
  split
  · rename_i h
    exact hsimple (by rw [h]; rfl)
  split
  · rename_i h
    exact hsimple (by rw [h]; rfl)
  split
  · rename_i h
    exact hsimple (by rw [h]; rfl)
  split
  · rename_i h
    exact hsimple (by rw [h]; rfl)
  split
  · rename_i h
    exact hsimple (by rw [hcode h]; rfl)
  split
  · rename_i h
    exact hsimple (by rw [hcode h]; rfl)
  split
  · rename_i h
    refine ⟨.unit c.toNat, ?_, readPieces?_unit h⟩
    have hstands := stands_unit h
    rwa [Char.ofNat_toNat] at hstands
  · rename_i hquote hslash _ _ _ _ _ hlow
    exact ⟨_, stands_char c, readPieces?_plain hquote hslash (by omega)⟩

theorem readPieces?_escaped (cs rest : List Char) :
    ∃ ps, readPieces? (cs.flatMap escapeChar ++ '"' :: rest) = some (ps, rest) ∧ joinPieces? ps = some cs := by
  induction cs with
  | nil => exact ⟨[], by simp [readPieces?], rfl⟩
  | cons c cs ih =>
    obtain ⟨ps, hps, hjoin⟩ := ih
    obtain ⟨p, hp, hread⟩ := exists_piece c
    refine ⟨p :: ps, ?_, ?_⟩
    · rw [List.flatMap_cons, List.append_assoc, hread, hps]
      rfl
    · rw [hp, hjoin]
      rfl

/-! ## White space -/

/-- Where white space stands in a text: before items, members and closing brackets, by their depth, and
behind colons. -/
structure Spacing where
  gap : Nat → List Char
  colon : List Char
  isSpace_gap : ∀ depth, ∀ c ∈ gap depth, isSpace c = true
  isSpace_colon : ∀ c ∈ colon, isSpace c = true

/-- No white space. -/
def Spacing.none : Spacing := ⟨fun _ => [], [], by simp, by simp⟩

/-- Lines with indents. -/
def Spacing.lines : Spacing where
  gap := lineBreak
  colon := [' ']
  isSpace_gap := by
    intro depth c hc
    rcases List.mem_cons.mp hc with rfl | hc
    · rfl
    · rw [List.eq_of_mem_replicate hc]
      rfl
  isSpace_colon := by simp [isSpace]

mutual

/-- The text of a value with some white space. -/
def render (sp : Spacing) (depth : Nat) : Json → List Char
  | array (item :: rest) =>
    '[' :: (sp.gap (depth + 1) ++ (item.render sp (depth + 1) ++
      (renderItems sp (depth + 1) rest ++ (sp.gap depth ++ [']']))))
  | object ((name, value) :: rest) =>
    '\x7b' :: (sp.gap (depth + 1) ++ (quote name ++ ':' :: (sp.colon ++ (value.render sp (depth + 1) ++
      (renderMembers sp (depth + 1) rest ++ (sp.gap depth ++ ['\x7d']))))))
  | value => value.compact

/-- The items of an array behind its first. -/
def renderItems (sp : Spacing) (depth : Nat) : List Json → List Char
  | [] => []
  | item :: rest => ',' :: (sp.gap depth ++ (item.render sp depth ++ renderItems sp depth rest))

/-- The members of an object behind its first. -/
def renderMembers (sp : Spacing) (depth : Nat) : List (String × Json) → List Char
  | [] => []
  | (name, value) :: rest =>
    ',' :: (sp.gap depth ++ (quote name ++ ':' :: (sp.colon ++ (value.render sp depth ++
      renderMembers sp depth rest))))

end

@[simp] theorem Spacing.none_gap (depth : Nat) : Spacing.none.gap depth = [] := rfl
@[simp] theorem Spacing.none_colon : Spacing.none.colon = [] := rfl
@[simp] theorem Spacing.lines_gap (depth : Nat) : Spacing.lines.gap depth = lineBreak depth := rfl
@[simp] theorem Spacing.lines_colon : Spacing.lines.colon = [' '] := rfl

mutual

theorem render_none : ∀ (j : Json) (depth : Nat), j.render .none depth = j.compact
  | null, _ => by simp only [render]
  | bool _, _ => by simp only [render]
  | number _, _ => by simp only [render]
  | string _, _ => by simp only [render]
  | unreadable, _ => by simp only [render]
  | array [], _ => by simp only [render]
  | array (item :: rest), depth => by
    have h := renderItems_none rest item (depth + 1)
    simp [render, compact, ← h, render_none item]
  | object [], _ => by simp only [render]
  | object ((name, value) :: rest), depth => by
    have h := renderMembers_none rest name value (depth + 1)
    simp [render, compact, ← h, render_none value]

theorem renderItems_none : ∀ (rest : List Json) (item : Json) (depth : Nat),
    item.compact ++ renderItems .none depth rest = compactItems (item :: rest)
  | [], item, depth => by simp [renderItems, compactItems]
  | next :: rest, item, depth => by
    have h := renderItems_none rest next depth
    simp [renderItems, compactItems, render_none next, h]

theorem renderMembers_none : ∀ (rest : List (String × Json)) (name : String) (value : Json) (depth : Nat),
    quote name ++ ':' :: (value.compact ++ renderMembers .none depth rest) =
      compactMembers ((name, value) :: rest)
  | [], name, value, depth => by simp [renderMembers, compactMembers]
  | (next, v) :: rest, name, value, depth => by
    have h := renderMembers_none rest next v depth
    simp [renderMembers, compactMembers, render_none v, h]

end

mutual

theorem render_lines : ∀ (j : Json) (depth : Nat), j.render .lines depth = j.indented depth
  | null, _ => by simp only [render, indented]
  | bool _, _ => by simp only [render, indented]
  | number _, _ => by simp only [render, indented]
  | string _, _ => by simp only [render, indented]
  | unreadable, _ => by simp only [render, indented]
  | array [], _ => by simp [render, indented, compact, compactItems]
  | array (item :: rest), depth => by
    have h := renderItems_lines rest item (depth + 1)
    simp [render, indented, ← h, render_lines item]
  | object [], _ => by simp [render, indented, compact, compactMembers]
  | object ((name, value) :: rest), depth => by
    have h := renderMembers_lines rest name value (depth + 1)
    simp [render, indented, ← h, render_lines value]

theorem renderItems_lines : ∀ (rest : List Json) (item : Json) (depth : Nat),
    lineBreak depth ++ (item.indented depth ++ renderItems .lines depth rest) =
      indentedItems depth (item :: rest)
  | [], item, depth => by simp [renderItems, indentedItems]
  | next :: rest, item, depth => by
    have h := renderItems_lines rest next depth
    simp [renderItems, indentedItems, render_lines next, h]

theorem renderMembers_lines : ∀ (rest : List (String × Json)) (name : String) (value : Json) (depth : Nat),
    lineBreak depth ++ (quote name ++ ':' :: ' ' :: (value.indented depth ++ renderMembers .lines depth rest)) =
      indentedMembers depth ((name, value) :: rest)
  | [], name, value, depth => by simp [renderMembers, indentedMembers]
  | (next, v) :: rest, name, value, depth => by
    have h := renderMembers_lines rest next v depth
    simp [renderMembers, indentedMembers, render_lines v, h]

end

theorem skipSpace_append {space : List Char} (h : ∀ c ∈ space, isSpace c = true) (s : List Char) :
    skipSpace (space ++ s) = skipSpace s :=
  List.dropWhile_append_of_pos h

theorem isNumberChar_of_isSpace {c : Char} (h : isSpace c = true) : isNumberChar c = false := by
  simp only [isSpace, Bool.or_eq_true, beq_iff_eq, or_assoc] at h
  rcases h with rfl | rfl | rfl | rfl <;> rfl

theorem ends_space_append {space : List Char} (h : ∀ c ∈ space, isSpace c = true) {c : Char}
    (hc : isNumberChar c = false) (t : List Char) : Ends (space ++ c :: t) := by
  cases space with
  | nil => exact ends_cons hc t
  | cons d space => exact ends_cons (isNumberChar_of_isSpace (h d (by simp))) _

theorem read?_space {space : List Char} (h : ∀ c ∈ space, isSpace c = true) (fuel : Nat) (s : List Char) :
    read? fuel (space ++ s) = read? fuel s := by
  cases fuel with
  | zero => rfl
  | succ fuel => rw [read?, read?, skipSpace_append h]

/-! ## Values -/

mutual

/-- Every number in the value reads back, and nothing in it lacks a value. -/
def Readable : Json → Prop
  | number n => ReadsBack n
  | array items => AllReadable items
  | object members => MembersReadable members
  | unreadable => False
  | _ => True

def AllReadable : List Json → Prop
  | [] => True
  | item :: rest => item.Readable ∧ AllReadable rest

def MembersReadable : List (String × Json) → Prop
  | [] => True
  | (_, value) :: rest => value.Readable ∧ MembersReadable rest

end

theorem quote_append (s : String) (t : List Char) :
    quote s ++ t = '"' :: (s.toList.flatMap escapeChar ++ '"' :: t) := by
  simp [quote]

theorem read?_quote (s : String) (fuel : Nat) (t : List Char) :
    read? (fuel + 1) (quote s ++ t) = some (string s, t) := by
  obtain ⟨ps, hps, hjoin⟩ := readPieces?_escaped s.toList t
  have hread : read? (fuel + 1) ('"' :: (s.toList.flatMap escapeChar ++ '"' :: t)) =
      (readPieces? (s.toList.flatMap escapeChar ++ '"' :: t)).map fun read =>
        ((joinPieces? read.1).elim unreadable (fun cs => string (String.ofList cs)), read.2) := rfl
  rw [quote_append, hread, hps, Option.map_some]
  dsimp only
  rw [hjoin, Option.elim_some, String.ofList_toList]

theorem readName?_quote (s : String) (t : List Char) : readName? (quote s ++ ':' :: t) = some (s, t) := by
  obtain ⟨ps, hps, hjoin⟩ := readPieces?_escaped s.toList (':' :: t)
  rw [quote_append, readName?, hps, Option.bind_eq_bind, Option.bind_some]
  dsimp only
  rw [hjoin, skipSpace_cons rfl, Option.bind_eq_bind, Option.bind_some, String.ofList_toList]
  rfl

/-- A value starts neither with white space nor like the end of an array. -/
theorem exists_cons_render (sp : Spacing) (depth : Nat) {j : Json} (h : j.Readable) :
    ∃ c s, j.render sp depth = c :: s ∧ isSpace c = false ∧ c ≠ ']' := by
  cases j with
  | null => exact ⟨'n', _, rfl, rfl, by decide⟩
  | bool b =>
    cases b with
    | true => exact ⟨'t', _, rfl, rfl, by decide⟩
    | false => exact ⟨'f', _, rfl, rfl, by decide⟩
  | number n =>
    obtain ⟨c, s, hs, hc⟩ := ReadsBack.exists_cons h
    refine ⟨c, s, hs, isSpace_of_isNumeralChar hc, ?_⟩
    rintro rfl
    cases hc
  | string s => exact ⟨'"', _, rfl, rfl, by decide⟩
  | array items =>
    cases items with
    | nil => exact ⟨'[', _, rfl, rfl, by decide⟩
    | cons item rest => exact ⟨'[', _, rfl, rfl, by decide⟩
  | object members =>
    cases members with
    | nil => exact ⟨'\x7b', _, rfl, rfl, by decide⟩
    | cons member rest => exact ⟨'\x7b', _, rfl, rfl, by decide⟩
  | unreadable => exact h.elim

theorem length_render_pos (sp : Spacing) (depth : Nat) {j : Json} (h : j.Readable) :
    0 < (j.render sp depth).length := by
  obtain ⟨c, s, hs, -⟩ := exists_cons_render sp depth h
  rw [hs]
  exact Nat.succ_pos _

theorem scanItem_of_read? {fuel : Nat} {s t : List Char} {item : Json} {rest : List Json} {u : List Char}
    (h : read? fuel s = some (item, t)) (hrest : scanItems fuel false t = (rest, some u)) :
    scanItem (fuel + 1) s = (item :: rest, some u) := by
  rw [scanItem, h]
  dsimp only
  rw [hrest]

theorem scanMember_of_read? {fuel : Nat} {s t u v : List Char} {name : String} {value : Json}
    {rest : List (String × Json)} (hname : readName? s = some (name, t)) (h : read? fuel t = some (value, u))
    (hrest : scanMembers fuel false u = (rest, some v)) :
    scanMember (fuel + 1) s = ((name, value) :: rest, some v) := by
  rw [scanMember, hname]
  dsimp only
  rw [h]
  dsimp only
  rw [hrest]

section
variable {space : List Char} (h : ∀ c ∈ space, isSpace c = true) (fuel : Nat)
include h

theorem scanItems_close (first : Bool) (t : List Char) :
    scanItems (fuel + 1) first (space ++ ']' :: t) = ([], some t) := by
  unfold scanItems
  rw [skipSpace_append h, skipSpace_cons rfl]
  rfl

theorem scanMembers_close (first : Bool) (t : List Char) :
    scanMembers (fuel + 1) first (space ++ '\x7d' :: t) = ([], some t) := by
  unfold scanMembers
  rw [skipSpace_append h, skipSpace_cons rfl]
  rfl

theorem scanItems_first {c : Char} (hc : isSpace c = false) (hclose : c ≠ ']') (t : List Char) :
    scanItems (fuel + 1) true (space ++ c :: t) = scanItem fuel (c :: t) := by
  unfold scanItems
  rw [skipSpace_append h, skipSpace_cons hc]
  split
  · rename_i heq
    cases heq
    exact absurd rfl hclose
  · contradiction
  · rfl
  · contradiction

theorem scanMembers_first (name : String) (t : List Char) :
    scanMembers (fuel + 1) true (space ++ (quote name ++ t)) = scanMember fuel (quote name ++ t) := by
  unfold scanMembers
  rw [skipSpace_append h, quote_append, skipSpace_cons rfl]
  rfl

theorem scanMembers_comma (name : String) (t : List Char) :
    scanMembers (fuel + 1) false (',' :: (space ++ (quote name ++ t))) = scanMember fuel (quote name ++ t) := by
  have hskip : skipSpace (space ++ (quote name ++ t)) = quote name ++ t := by
    rw [skipSpace_append h, quote_append, skipSpace_cons rfl]
  have hcomma : scanMembers (fuel + 1) false (',' :: (space ++ (quote name ++ t))) =
      scanMember fuel (skipSpace (space ++ (quote name ++ t))) := rfl
  rw [hcomma, hskip]

end

theorem ends_renderItems (sp : Spacing) (depth outer : Nat) (rest : List Json) (t : List Char) :
    Ends (renderItems sp depth rest ++ (sp.gap outer ++ ']' :: t)) := by
  cases rest with
  | nil => exact ends_space_append (sp.isSpace_gap outer) (by decide) t
  | cons item rest => exact ends_cons (by decide) _

theorem ends_renderMembers (sp : Spacing) (depth outer : Nat) (rest : List (String × Json)) (t : List Char) :
    Ends (renderMembers sp depth rest ++ (sp.gap outer ++ '\x7d' :: t)) := by
  cases rest with
  | nil => exact ends_space_append (sp.isSpace_gap outer) (by decide) t
  | cons member rest => exact ends_cons (by decide) _

-- Two steps for each character are enough: an item takes two more than what it holds, and it has at least
-- one character and a comma or a bracket behind it.
mutual

theorem read?_render (sp : Spacing) : ∀ (j : Json), j.Readable → ∀ (depth fuel : Nat) (t : List Char),
    2 * (j.render sp depth).length ≤ fuel + 1 → Ends t →
      read? (fuel + 1) (j.render sp depth ++ t) = some (j, t)
  | null, _, _, _, _, _, _ => rfl
  | bool true, _, _, _, _, _, _ => rfl
  | bool false, _, _, _, _, _, _ => rfl
  | number n, h, depth, fuel, t, _, ht => ReadsBack.read? h fuel ht
  | string s, _, depth, fuel, t, _, _ => read?_quote s fuel t
  | unreadable, h, _, _, _, _, _ => h.elim
  | array [], _, depth, fuel, t, hfuel, _ => by
    have hlen : (render sp depth (array [])).length = 2 := rfl
    obtain ⟨f, rfl⟩ : ∃ f, fuel = f + 1 := ⟨fuel - 1, by omega⟩
    rfl
  | array (item :: rest), h, depth, fuel, t, hfuel, _ => by
    have hitem : item.Readable ∧ AllReadable rest := h
    obtain ⟨c, s, hs, hspace, hclose⟩ := exists_cons_render sp (depth + 1) hitem.1
    have hpos := length_render_pos sp (depth + 1) hitem.1
    simp only [render, List.length_cons, List.length_append, List.length_nil] at hfuel
    obtain ⟨f, rfl⟩ : ∃ f, fuel = f + 3 := ⟨fuel - 3, by omega⟩
    have hread := read?_render sp item hitem.1 (depth + 1) f
      (renderItems sp (depth + 1) rest ++ (sp.gap depth ++ ']' :: t)) (by omega) (ends_renderItems sp _ _ rest t)
    have hrest := scanItems_render sp rest hitem.2 (depth + 1) depth (f + 1) t
      (by simp only [List.length_append, List.length_cons, List.length_nil]; omega)
    have hscan := scanItem_of_read? hread hrest
    rw [hs, List.cons_append, ← scanItems_first (sp.isSpace_gap (depth + 1)) _ hspace hclose] at hscan
    have harray : ∀ s, read? (f + 4) ('[' :: s) =
        (scanItems (f + 3) true s).2.map fun rest => (array (scanItems (f + 3) true s).1, rest) := fun _ => rfl
    simp only [render, hs, List.cons_append, List.append_assoc, List.nil_append]
    rw [harray, hscan]
    rfl
  | object [], _, depth, fuel, t, hfuel, _ => by
    have hlen : (render sp depth (object [])).length = 2 := rfl
    obtain ⟨f, rfl⟩ : ∃ f, fuel = f + 1 := ⟨fuel - 1, by omega⟩
    rfl
  | object ((name, value) :: rest), h, depth, fuel, t, hfuel, _ => by
    have hvalue : value.Readable ∧ MembersReadable rest := h
    have hpos := length_render_pos sp (depth + 1) hvalue.1
    simp only [render, List.length_cons, List.length_append, List.length_nil] at hfuel
    obtain ⟨f, rfl⟩ : ∃ f, fuel = f + 3 := ⟨fuel - 3, by omega⟩
    have hread := read?_render sp value hvalue.1 (depth + 1) f
      (renderMembers sp (depth + 1) rest ++ (sp.gap depth ++ '\x7d' :: t)) (by omega) (ends_renderMembers sp _ _ rest t)
    have hrest := scanMembers_render sp rest hvalue.2 (depth + 1) depth (f + 1) t
      (by simp only [List.length_append, List.length_cons, List.length_nil]; omega)
    rw [← read?_space sp.isSpace_colon] at hread
    have hscan := scanMember_of_read? (readName?_quote name _) hread hrest
    rw [← scanMembers_first (sp.isSpace_gap (depth + 1))] at hscan
    have hobject : ∀ s, read? (f + 4) ('\x7b' :: s) =
        (scanMembers (f + 3) true s).2.map fun rest => (object (scanMembers (f + 3) true s).1, rest) := fun _ => rfl
    simp only [render, List.cons_append, List.append_assoc, List.nil_append]
    rw [hobject, hscan]
    rfl

theorem scanItems_render (sp : Spacing) : ∀ (rest : List Json), AllReadable rest →
    ∀ (depth outer fuel : Nat) (t : List Char),
      2 * (renderItems sp depth rest ++ (sp.gap outer ++ [']'])).length ≤ fuel →
        scanItems fuel false (renderItems sp depth rest ++ (sp.gap outer ++ ']' :: t)) = (rest, some t)
  | [], _, depth, outer, fuel, t, hfuel => by
    simp only [renderItems, List.length_append, List.length_cons, List.length_nil] at hfuel
    obtain ⟨f, rfl⟩ : ∃ f, fuel = f + 1 := ⟨fuel - 1, by omega⟩
    exact scanItems_close (sp.isSpace_gap outer) f false t
  | item :: rest, h, depth, outer, fuel, t, hfuel => by
    have hpos := length_render_pos sp depth h.1
    simp only [renderItems, List.length_append, List.length_cons, List.length_nil] at hfuel
    obtain ⟨f, rfl⟩ : ∃ f, fuel = f + 3 := ⟨fuel - 3, by omega⟩
    have hread := read?_render sp item h.1 depth f
      (renderItems sp depth rest ++ (sp.gap outer ++ ']' :: t)) (by omega) (ends_renderItems sp _ _ rest t)
    have hrest := scanItems_render sp rest h.2 depth outer (f + 1) t
      (by simp only [List.length_append, List.length_cons, List.length_nil]; omega)
    rw [← read?_space (sp.isSpace_gap depth)] at hread
    have hcomma : ∀ s, scanItems (f + 3) false (',' :: s) = scanItem (f + 2) s := fun _ => rfl
    simp only [renderItems, List.cons_append, List.append_assoc]
    rw [hcomma]
    exact scanItem_of_read? hread hrest

theorem scanMembers_render (sp : Spacing) : ∀ (rest : List (String × Json)), MembersReadable rest →
    ∀ (depth outer fuel : Nat) (t : List Char),
      2 * (renderMembers sp depth rest ++ (sp.gap outer ++ ['\x7d'])).length ≤ fuel →
        scanMembers fuel false (renderMembers sp depth rest ++ (sp.gap outer ++ '\x7d' :: t)) = (rest, some t)
  | [], _, depth, outer, fuel, t, hfuel => by
    simp only [renderMembers, List.length_append, List.length_cons, List.length_nil] at hfuel
    obtain ⟨f, rfl⟩ : ∃ f, fuel = f + 1 := ⟨fuel - 1, by omega⟩
    exact scanMembers_close (sp.isSpace_gap outer) f false t
  | (name, value) :: rest, h, depth, outer, fuel, t, hfuel => by
    have hpos := length_render_pos sp depth h.1
    simp only [renderMembers, List.length_append, List.length_cons, List.length_nil] at hfuel
    obtain ⟨f, rfl⟩ : ∃ f, fuel = f + 3 := ⟨fuel - 3, by omega⟩
    have hread := read?_render sp value h.1 depth f
      (renderMembers sp depth rest ++ (sp.gap outer ++ '\x7d' :: t)) (by omega) (ends_renderMembers sp _ _ rest t)
    have hrest := scanMembers_render sp rest h.2 depth outer (f + 1) t
      (by simp only [List.length_append, List.length_cons, List.length_nil]; omega)
    rw [← read?_space sp.isSpace_colon] at hread
    simp only [renderMembers, List.cons_append, List.append_assoc]
    rw [scanMembers_comma (sp.isSpace_gap depth)]
    exact scanMember_of_read? (readName?_quote name _) hread hrest

end

theorem parse?_render (sp : Spacing) {j : Json} (h : j.Readable) : parse? (String.ofList (j.render sp 0)) = some j := by
  have hread := read?_render sp j h 0 (3 * (j.render sp 0).length + 2) [] (by omega) ends_nil
  rw [List.append_nil] at hread
  rw [parse?, String.toList_ofList, fuelFor, hread]
  rfl

/-- A reader that stops at the first fault finds none in the text of an object. -/
theorem scan_render (sp : Spacing) {members : List (String × Json)} (h : MembersReadable members) :
    scan (String.ofList ((object members).render sp 0)) = .object members true := by
  obtain ⟨body, hbody⟩ : ∃ body, (object members).render sp 0 = '\x7b' :: body := by
    cases members with
    | nil => exact ⟨_, rfl⟩
    | cons member members => exact ⟨_, rfl⟩
  have hread := read?_render sp (object members) h 0 (fuelFor body) [] (by rw [hbody, List.length_cons, fuelFor]; omega)
    ends_nil
  have hobject : read? (fuelFor body + 1) ('\x7b' :: body) =
      (scanMembers (fuelFor body) true body).2.map fun rest =>
        (object (scanMembers (fuelFor body) true body).1, rest) := rfl
  rw [List.append_nil, hbody, hobject, Option.map_eq_some_iff] at hread
  obtain ⟨rest, hrest, heq⟩ := hread
  cases heq
  have hscan : scan (String.ofList ('\x7b' :: body)) =
      .object (scanMembers (fuelFor body) true body).1
        ((scanMembers (fuelFor body) true body).2.elim false fun rest => skipSpace rest == []) := by
    rw [scan, String.toList_ofList]
    rfl
  rw [hbody, hscan, hrest]
  rfl

theorem parse?_compactText {j : Json} (h : j.Readable) : parse? j.compactText = some j := by
  rw [compactText, ← render_none j 0]
  exact parse?_render .none h

theorem parse?_indentedText {j : Json} (h : j.Readable) : parse? j.indentedText = some j := by
  rw [indentedText, ← render_lines j 0]
  exact parse?_render .lines h

end KeyboardPlate.Json

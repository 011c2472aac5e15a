import Mathlib.Tactic.IntervalCases
import ResourceScript.Json.Printer
import ResourceScript.Json.Reader
import ResourceScript.Proofs.Members
import ResourceScript.Proofs.Numerals

namespace ResourceScript.Json

/-- What a reader finds for a glyph. Of the raw bytes it knows only those that are no ASCII. -/
def readBack : Glyph → Glyph
  | .char c => .char c
  | .byte b => if b < 0x80 then .char '\uFFFD' else .byte b

def isBlank (c : Char) : Bool :=
  c == ' ' || c == '\t' || c == '\n' || c == '\r'

/-- A layout that parts what it lays out by a comma and blanks. -/
structure Layout.IsSpaced (layout : Layout) : Prop where
  opening : ∀ level, ∀ c ∈ layout.opening level, isBlank c = true
  between : ∀ level, ∃ blanks, layout.between level = ',' :: blanks ∧ ∀ c ∈ blanks, isBlank c = true
  closing : ∀ level, ∀ c ∈ layout.closing level, isBlank c = true

/-- Values that a reader finds again inside a number of brackets: no floating-point numbers,
integers that can be shown, and objects without a key twice. -/
inductive Readable : Nat → Json → Prop where
  | null : Readable depth .null
  | bool : Readable depth (.bool b)
  | int : Text.isShown n = true → Readable depth (.int n)
  | str : Readable depth (.str t)
  | arr : depth < depthLimit → (∀ j ∈ items, Readable (depth + 1) j) → Readable depth (.arr items)
  | obj : depth < depthLimit → (members.map Prod.fst).Nodup →
      (∀ m ∈ members, Readable (depth + 1) m.2) → Readable depth (.obj members)

mutual

def found : Json → Json
  | str t => str (t.map readBack)
  | arr items => arr (foundItems items)
  | obj members => obj (foundMembers members)
  | other => other

def foundItems : List Json → List Json
  | [] => []
  | item :: items => found item :: foundItems items

def foundMembers : List (String × Json) → List (String × Json)
  | [] => []
  | (key, value) :: members => (key, found value) :: foundMembers members

end

/-- What may follow a value: the end of the text, a blank, a comma or a closing bracket. -/
def Ends (rest : List Char) : Prop :=
  ∀ c ∈ rest.head?, isBlank c = true ∨ c = ',' ∨ c = ']' ∨ c = '\x7d'

/-- A value that is found again in its text, with fuel enough for the length of it. -/
def Reads (layout : Layout) (depth level : Nat) (j : Json) : Prop :=
  ∀ fuel rest, 2 * (render layout level j).length ≤ fuel → Ends rest →
    readValue depth fuel (render layout level j ++ rest) = .ok (found j, rest)

def isVisible (c : Char) : Bool :=
  0x20 ≤ c.toNat && c.toNat < 0x7F

def ofTexts (members : List (String × Text)) : Json :=
  .obj (members.map fun m => (m.1, .str m.2))

variable {layout : Layout} {depth level fuel n : Nat} {c : Char} {t : Text} {key : String}
  {cs cs' cs'' behind rest blanks : List Char} {j item value : Json} {items : List Json}
  {members : List (String × Json)}

theorem readUnit_hexDigits (h : n < 0x10000) (cs : List Char) :
    readUnit (Text.hexDigits 4 n ++ cs) = some (n, cs) := by
  have hdigit : ∀ d : Fin 16, Text.hexValue? (Nat.digitChar d) = some d.val := by decide
  have hlength : (Text.hexDigits 4 n).length = 4 := by
    have hdigits := Nat.length_toDigits_le_iff (b := 16) (n := n) (k := 4) (by decide) (by decide)
    rw [Text.length_hexDigits]
    omega
  obtain ⟨ds, hds, hall, hvalue⟩ := Text.exists_hexDigits 4 n
  have hread : (Text.hexDigits 4 n).mapM Text.hexValue? = some ds := by
    rw [hds]
    exact Text.mapM_map_eq_some fun d hd => hdigit ⟨d, hall d hd⟩
  obtain ⟨a, b, c, d, habcd⟩ := List.length_eq_four.mp hlength
  rw [habcd] at hread ⊢
  simp only [List.cons_append, List.nil_append, readUnit, hread, ← hvalue]
  rfl

theorem readString_backslash {g : Glyph} (h : readEscape cs = some (g, rest)) (fuel : Nat) :
    readString (fuel + 1) ('\\' :: cs) = (readString fuel rest).map fun r => (g :: r.1, r.2) := by
  simp only [readString, h, Option.bind_eq_bind, Option.bind_some]
  cases readString fuel rest <;> rfl

theorem readString_unit (h : n < 0x10000) (hhigh : ¬ (0xD800 ≤ n ∧ n ≤ 0xDBFF)) (fuel : Nat)
    (cs : List Char) :
    readString (fuel + 1) (escapeUnit n ++ cs) =
      (readString fuel cs).map fun r => (glyphOfUnit n :: r.1, r.2) := by
  rw [escapeUnit, List.cons_append, List.cons_append]
  apply readString_backslash
  simp only [readEscape, readUnit_hexDigits h, Option.bind_eq_bind, Option.bind_some]
  rw [if_neg hhigh]
  rfl

theorem readString_pair {high low : Nat} (hhigh : 0xD800 ≤ high ∧ high ≤ 0xDBFF)
    (hlow : 0xDC00 ≤ low ∧ low ≤ 0xDFFF)
    (hc : 0x10000 + (high - 0xD800) * 0x400 + (low - 0xDC00) = c.toNat) (fuel : Nat)
    (cs : List Char) :
    readString (fuel + 1) (escapeUnit high ++ (escapeUnit low ++ cs)) =
      (readString fuel cs).map fun r => (.char c :: r.1, r.2) := by
  have hafter : after? ['\\', 'u'] (escapeUnit low ++ cs) = some (Text.hexDigits 4 low ++ cs) := by
    simp [escapeUnit, after?]
  rw [escapeUnit, List.cons_append, List.cons_append]
  apply readString_backslash
  simp only [readEscape, readUnit_hexDigits (show high < 0x10000 by omega), Option.bind_eq_bind,
    Option.bind_some, hafter, readUnit_hexDigits (show low < 0x10000 by omega)]
  rw [if_pos hhigh, if_pos hlow, hc, Char.ofNat_toNat]
  rfl

theorem readString_visible (hquote : c ≠ '"') (hbackslash : c ≠ '\\') (h : 0x20 ≤ c.toNat)
    (fuel : Nat) (cs : List Char) :
    readString (fuel + 1) (c :: cs) =
      (readString fuel cs).map fun r => (.char c :: r.1, r.2) := by
  rw [readString, if_neg hquote, if_neg hbackslash, if_neg (Nat.not_lt.mpr h)]
  cases readString fuel cs <;> rfl

theorem glyphOfUnit_toNat (c : Char) : glyphOfUnit c.toNat = .char c := by
  have hvalid : c.toNat.isValidChar := c.valid
  have hplain : ¬ (0xDC80 ≤ c.toNat ∧ c.toNat ≤ 0xDCFF) := by
    rcases hvalid with h | h <;> omega
  rw [glyphOfUnit, if_neg hplain, if_pos hvalid, Char.ofNat_toNat]

theorem glyphOfUnit_byte (b : UInt8) : glyphOfUnit (0xDC00 + b.toNat) = readBack (.byte b) := by
  have hb : b.toNat < 256 := b.toNat_lt
  have hlt : b < 0x80 ↔ b.toNat < 128 := UInt8.lt_iff_toNat_lt
  rw [glyphOfUnit, readBack]
  by_cases h : b.toNat < 128
  · have hinvalid : ¬ (0xDC00 + b.toNat).isValidChar := by
      rintro (h | h) <;> omega
    rw [if_neg (by omega), if_neg hinvalid, if_pos (hlt.mpr h)]
  · rw [if_pos (by omega), if_neg (mt hlt.mp h), Nat.add_sub_cancel_left, UInt8.ofNat_toNat]

theorem readString_escapeChar (c : Char) (fuel : Nat) (cs : List Char) :
    readString (fuel + 1) (escapeChar c ++ cs) =
      (readString fuel cs).map fun r => (.char c :: r.1, r.2) := by
  have hvalid : c.toNat.isValidChar := c.valid
  unfold escapeChar
  split
  case h_8 hquote hbackslash _ _ _ _ _ =>
    dsimp only
    split
    case isTrue hvisible => exact readString_visible hquote hbackslash hvisible.1 fuel cs
    case isFalse =>
      split
      case isTrue hbasic =>
        rw [readString_unit hbasic (by rcases hvalid with h | h <;> omega), glyphOfUnit_toNat]
      case isFalse hbasic =>
        have hlt : c.toNat < 0x110000 := by
          rcases hvalid with h | h <;> omega
        -- Beyond the basic plane a character is written as two units.
        rw [List.append_assoc]
        exact readString_pair (by omega) (by omega) (by omega) fuel cs
  all_goals exact readString_backslash rfl fuel

theorem readString_escapeGlyph (g : Glyph) (fuel : Nat) (cs : List Char) :
    readString (fuel + 1) (escapeGlyph g ++ cs) =
      (readString fuel cs).map fun r => (readBack g :: r.1, r.2) := by
  cases g with
  | char c => exact readString_escapeChar c fuel cs
  | byte b =>
    have hb : b.toNat < 256 := b.toNat_lt
    rw [escapeGlyph, readString_unit (by omega) (by omega), glyphOfUnit_byte]

theorem readString_escaped (h : t.length < fuel) (rest : List Char) :
    readString fuel (t.flatMap escapeGlyph ++ '"' :: rest) = some (t.map readBack, rest) := by
  induction t generalizing fuel with
  | nil =>
    obtain ⟨fuel, rfl⟩ := Nat.exists_eq_add_one.mpr h
    rfl
  | cons g t ih =>
    obtain ⟨fuel, rfl⟩ := Nat.exists_eq_add_one.mpr (Nat.zero_lt_of_lt h)
    rw [List.flatMap_cons, List.append_assoc, readString_escapeGlyph,
      ih (Nat.lt_of_succ_lt_succ h)]
    rfl

theorem escapeGlyph_ne_nil (g : Glyph) : escapeGlyph g ≠ [] := by
  intro h
  have hread := readString_escapeGlyph g 1 ['"']
  rw [h] at hread
  cases hread

theorem length_le_escaped (t : Text) : t.length ≤ (t.flatMap escapeGlyph).length := by
  induction t with
  | nil => exact Nat.le_refl 0
  | cons g t ih =>
    have hg := List.length_pos_iff.mpr (escapeGlyph_ne_nil g)
    rw [List.flatMap_cons, List.length_cons, List.length_append]
    omega

theorem skipBlank_of_ne (h : (c == ' ' || c == '\t' || c == '\n' || c == '\r') = false) :
    skipBlank (c :: cs) = c :: cs :=
  List.dropWhile_cons_of_neg (by rw [h]; exact Bool.false_ne_true)

theorem quote_append (t : Text) (rest : List Char) :
    quote t ++ rest = '"' :: (t.flatMap escapeGlyph ++ '"' :: rest) := by
  simp [quote]

theorem readValue_quote (t : Text) (rest : List Char) :
    readValue depth (fuel + 1) (quote t ++ rest) = .ok (.str (t.map readBack), rest) := by
  have hlength := length_le_escaped t
  rw [quote_append, readValue, readString_escaped]
  · rfl
  · rw [List.length_append]
    omega

theorem map_readBack_text (s : String) : (text s).map readBack = text s := by
  simp [Text.ofString, Text.ofChars, readBack]

theorem readString_key (key : String) (rest : List Char) :
    readString (((text key).flatMap escapeGlyph ++ '"' :: rest).length + 1)
        ((text key).flatMap escapeGlyph ++ '"' :: rest) =
      some (text key, rest) := by
  have hlength := length_le_escaped (text key)
  rw [readString_escaped, map_readBack_text]
  rw [List.length_append]
  omega

theorem keys_foundMembers (members : List (String × Json)) :
    (foundMembers members).map Prod.fst = members.map Prod.fst := by
  induction members with
  | nil => rfl
  | cons m members ih => rw [foundMembers, List.map_cons, List.map_cons, ih]

theorem ends_cons (h : isBlank c = true ∨ c = ',' ∨ c = ']' ∨ c = '\x7d') : Ends (c :: cs) := by
  rintro _ ⟨⟩
  exact h

theorem ends_append (h : ∀ c ∈ blanks, isBlank c = true) (hcs : Ends cs) : Ends (blanks ++ cs) := by
  cases blanks with
  | nil => exact hcs
  | cons c blanks => exact ends_cons (.inl (h c List.mem_cons_self))

theorem Ends.head (h : Ends rest) :
    ∀ c ∈ rest.head?, ¬('0' ≤ c ∧ c ≤ '9') ∧ c ≠ '.' ∧ c ≠ 'e' ∧ c ≠ 'E' := by
  intro c hc
  have hends := h c hc
  simp only [isBlank, Bool.or_eq_true, beq_iff_eq] at hends
  obtain (((rfl | rfl) | rfl) | rfl) | rfl | rfl | rfl := hends <;> decide

theorem Ends.readFraction (h : Ends rest) : readFraction rest = ([], rest) := by
  cases rest with
  | nil => rfl
  | cons c rest =>
    unfold Json.readFraction
    split
    case h_1 heq => exact absurd (List.cons.inj heq).1 (h.head c rfl).2.1
    case h_2 => rfl

theorem Ends.readExponent (h : Ends rest) : readExponent rest = (none, rest) := by
  cases rest with
  | nil => rfl
  | cons c rest =>
    obtain ⟨-, -, he, hE⟩ := h.head c rfl
    simp only [Json.readExponent, he, hE, or_self, if_false]

theorem skipBlank_append (h : ∀ c ∈ blanks, isBlank c = true) (cs : List Char) :
    skipBlank (blanks ++ cs) = skipBlank cs :=
  List.dropWhile_append_of_pos h

theorem takeDigits_digits {ds : List Nat} (hds : ∀ d ∈ ds, d < 10)
    (hrest : ∀ c ∈ rest.head?, ¬('0' ≤ c ∧ c ≤ '9')) :
    Text.takeDigits (ds.map Nat.digitChar ++ rest) = (ds, rest) := by
  let isDigit (c : Char) : Bool := '0' ≤ c && c ≤ '9'
  have hdigit : ∀ d : Fin 10, isDigit (Nat.digitChar d) = true ∧
      (Nat.digitChar d).toNat - '0'.toNat = d := by decide
  have hall : ∀ c ∈ ds.map Nat.digitChar, isDigit c = true := by
    rw [List.forall_mem_map]
    exact fun d hd => (hdigit ⟨d, hds d hd⟩).1
  have hvalues : (ds.map Nat.digitChar).map (fun c => c.toNat - '0'.toNat) = ds := by
    rw [List.map_map, List.map_congr_left (g := id) fun d hd => (hdigit ⟨d, hds d hd⟩).2]
    exact List.map_id ds
  have htake : rest.takeWhile isDigit = [] ∧ rest.dropWhile isDigit = rest := by
    cases rest with
    | nil => exact ⟨rfl, rfl⟩
    | cons c rest =>
      have hc : isDigit c = false := by simpa [isDigit] using hrest c rfl
      exact ⟨List.takeWhile_cons_of_neg (by simp [hc]), List.dropWhile_cons_of_neg (by simp [hc])⟩
  rw [Text.takeDigits, List.takeWhile_append_of_pos hall, List.dropWhile_append_of_pos hall,
    htake.1, htake.2, List.append_nil, hvalues]

theorem readMagnitude_digits (hn : Text.isShown n = true) (hrest : Ends rest)
    (negative : Bool) :
    readMagnitude negative (Nat.toDigits 10 n ++ rest) =
      .ok (.int (if negative then -(n : Int) else n), rest) := by
  have hlength := Text.isShown_iff_length_le.mp hn
  obtain ⟨ds, hds, hall, hvalue, hhead⟩ := Text.exists_digits 10 (by decide) n
  have hne : ds ≠ [] := by
    rintro rfl
    exact Nat.toDigits_ne_nil hds
  rw [hds, List.length_map] at hlength
  have hdecimal : Text.decimal? ds = some n := by
    rw [Text.decimal?, if_pos hlength, hvalue]
  have htake := takeDigits_digits hall fun c hc => (hrest.head c hc).1
  have hwhole : (if ds.head? == some 0 then ([0], (ds.map Nat.digitChar ++ rest).drop 1)
      else (ds, rest)) = (ds, rest) := by
    split
    case isTrue hzero =>
      rw [hhead (beq_iff_eq.mp hzero)]
      rfl
    case isFalse => rfl
  rw [hds, readMagnitude, htake]
  split
  case h_1 heq => exact absurd (Prod.mk.inj heq).1 hne
  case h_2 heq =>
    obtain ⟨rfl, rfl⟩ := Prod.mk.inj heq
    simp only [hwhole, hrest.readFraction, hrest.readExponent, hdecimal, List.isEmpty_nil,
      Option.isNone_none, Bool.and_self, if_true]

theorem readValue_digits (hn : Text.isShown n = true) (hrest : Ends rest) :
    readValue depth (fuel + 1) (Nat.toDigits 10 n ++ rest) = .ok (.int n, rest) ∧
      readValue depth (fuel + 1) ('-' :: (Nat.toDigits 10 n ++ rest)) = .ok (.int (-n), rest) := by
  have hdigit : ∀ d : Fin 10, ∀ cs,
      readValue depth (fuel + 1) (Nat.digitChar d :: cs) =
        readMagnitude false (Nat.digitChar d :: cs) ∧
      readValue depth (fuel + 1) ('-' :: Nat.digitChar d :: cs) =
        readMagnitude true (Nat.digitChar d :: cs) := by
    rintro ⟨d, hd⟩ cs
    interval_cases d <;> exact ⟨rfl, rfl⟩
  obtain ⟨ds, hds, hall, -⟩ := Text.exists_digits 10 (by decide) n
  cases ds with
  | nil => exact absurd hds Nat.toDigits_ne_nil
  | cons d ds =>
    have hread := hdigit ⟨d, hall d List.mem_cons_self⟩ (ds.map Nat.digitChar ++ rest)
    rw [← List.cons_append, ← List.map_cons (f := Nat.digitChar), ← hds] at hread
    rw [hread.1, hread.2, readMagnitude_digits hn hrest, readMagnitude_digits hn hrest]
    exact ⟨rfl, rfl⟩

theorem toList_toString_int (n : Int) :
    (toString n).toList = (if n < 0 then ['-'] else []) ++ Nat.toDigits 10 n.natAbs := by
  cases n with
  | ofNat n =>
    change (Nat.repr n).toList = _
    rw [Nat.repr_eq_ofList_toDigits, String.toList_ofList]
    rfl
  | negSucc n =>
    change ("-" ++ Nat.repr (n + 1)).toList = _
    rw [Nat.repr_eq_ofList_toDigits, String.toList_append, String.toList_ofList,
      String.toList_ofList, if_pos (Int.negSucc_lt_zero n)]
    rfl

theorem readValue_int {n : Int} (hn : Text.isShown n = true) (hrest : Ends rest) :
    readValue depth (fuel + 1) ((toString n).toList ++ rest) = .ok (.int n, rest) := by
  rw [toList_toString_int]
  split
  case isTrue hneg =>
    have hsize : -(n.natAbs : Int) = n := by omega
    rw [← hsize, Text.isShown_neg] at hn
    rw [List.append_assoc]
    exact (readValue_digits hn hrest).2.trans (by rw [hsize])
  case isFalse hneg =>
    have hsize : (n.natAbs : Int) = n := by omega
    rw [← hsize] at hn
    exact (readValue_digits hn hrest).1.trans (by rw [hsize])

theorem render_head (h : Readable depth j) (layout : Layout) (level : Nat) :
    ∃ c cs, render layout level j = c :: cs ∧ isBlank c = false ∧ c ≠ ']' := by
  cases h with
  | null => exact ⟨'n', _, rfl, by decide, by decide⟩
  | @bool _ b => cases b <;> exact ⟨_, _, rfl, by decide, by decide⟩
  | @int n _ hn =>
    have hdigit : ∀ d : Fin 10, isBlank (Nat.digitChar d) = false ∧ Nat.digitChar d ≠ ']' := by
      decide
    rw [render, toList_toString_int]
    obtain ⟨ds, hds, hall, -⟩ := Text.exists_digits 10 (by decide) n.natAbs
    split
    · exact ⟨'-', _, rfl, by decide, by decide⟩
    · cases ds with
      | nil => exact absurd hds Nat.toDigits_ne_nil
      | cons d ds =>
        rw [hds]
        exact ⟨_, _, rfl, hdigit ⟨d, hall d List.mem_cons_self⟩⟩
  | str => exact ⟨'"', _, rfl, by decide, by decide⟩
  | @arr _ items => cases items <;> exact ⟨'[', _, rfl, by decide, by decide⟩
  | @obj _ members => cases members <;> exact ⟨'\x7b', _, rfl, by decide, by decide⟩

theorem skipBlank_render (h : Readable depth j) (layout : Layout) (level : Nat) (rest : List Char) :
    skipBlank (render layout level j ++ rest) = render layout level j ++ rest := by
  obtain ⟨c, cs, hcs, hc, -⟩ := render_head h layout level
  rw [hcs]
  exact skipBlank_of_ne hc

theorem readItems_last (hread : readValue depth fuel (skipBlank cs) = .ok (item, behind))
    (hbehind : skipBlank behind = ']' :: rest) :
    readItems depth (fuel + 1) cs = .ok ([item], rest) := by
  rw [readItems, hread]
  simp only [bind, Except.bind, hbehind]
  rfl

theorem readItems_more (hread : readValue depth fuel (skipBlank cs) = .ok (item, behind))
    (hbehind : skipBlank behind = ',' :: cs')
    (hmore : readItems depth fuel cs' = .ok (items, rest)) :
    readItems depth (fuel + 1) cs = .ok (item :: items, rest) := by
  rw [readItems, hread]
  simp only [bind, Except.bind, hbehind, hmore]
  rfl

theorem readMembers_last
    (hcs : skipBlank cs = quote (text key) ++ ':' :: cs')
    (hread : readValue depth fuel (skipBlank cs') = .ok (value, behind))
    (hbehind : skipBlank behind = '\x7d' :: rest) :
    readMembers depth (fuel + 1) cs = .ok ([(key, value)], rest) := by
  rw [quote_append] at hcs
  rw [readMembers]
  simp (disch := decide) only [hcs, readString_key, orMalformed, Option.elim_some, bind,
    Except.bind, skipBlank_of_ne, hread, hbehind, Text.toString_ofString]
  rfl

theorem readMembers_more
    (hcs : skipBlank cs = quote (text key) ++ ':' :: cs')
    (hread : readValue depth fuel (skipBlank cs') = .ok (value, behind))
    (hbehind : skipBlank behind = ',' :: cs'')
    (hmore : readMembers depth fuel cs'' = .ok (members, rest)) :
    readMembers depth (fuel + 1) cs = .ok ((key, value) :: members, rest) := by
  rw [quote_append] at hcs
  rw [readMembers]
  simp (disch := decide) only [hcs, readString_key, orMalformed, Option.elim_some, bind,
    Except.bind, skipBlank_of_ne, hread, hbehind, hmore, Text.toString_ofString]
  rfl

theorem isVisible_escapeUnit (n : Nat) : ∀ c ∈ escapeUnit n, isVisible c = true := by
  have hdigit : ∀ d : Fin 16, isVisible (Nat.digitChar d) = true := by decide
  obtain ⟨ds, hds, hall, -⟩ := Text.exists_hexDigits 4 n
  rw [escapeUnit, hds, List.forall_mem_cons, List.forall_mem_cons, List.forall_mem_map]
  exact ⟨by decide, by decide, fun d hd => hdigit ⟨d, hall d hd⟩⟩

theorem isVisible_escapeChar (c : Char) : ∀ c' ∈ escapeChar c, isVisible c' = true := by
  unfold escapeChar
  split
  case h_8 =>
    dsimp only
    split
    case isTrue h => simpa [isVisible] using h
    case isFalse =>
      split
      case isTrue => exact isVisible_escapeUnit _
      case isFalse =>
        rw [List.forall_mem_append]
        exact ⟨isVisible_escapeUnit _, isVisible_escapeUnit _⟩
  all_goals exact List.all_eq_true.mp (by decide)

theorem isVisible_quote (t : Text) : ∀ c ∈ quote t, isVisible c = true := by
  have hglyph (g : Glyph) : ∀ c ∈ escapeGlyph g, isVisible c = true := by
    cases g with
    | char c => exact isVisible_escapeChar c
    | byte b => exact isVisible_escapeUnit _
  rw [quote, List.cons_append, List.forall_mem_cons, List.forall_mem_append]
  refine ⟨by decide, ?_, List.forall_mem_singleton.mpr (by decide)⟩
  intro c hc
  obtain ⟨g, -, hg⟩ := List.mem_flatMap.mp hc
  exact hglyph g c hg

theorem readValue_arr_nil (hdepth : depth < depthLimit) (rest : List Char) :
    readValue depth (fuel + 1) ('[' :: ']' :: rest) = .ok (.arr [], rest) := by
  rw [readValue, if_neg hdepth.ne]
  rfl

theorem readValue_arr (hdepth : depth < depthLimit) (hcs : skipBlank cs = c :: cs') (hc : c ≠ ']')
    (hread : readItems (depth + 1) fuel (c :: cs') = .ok (items, rest)) :
    readValue depth (fuel + 1) ('[' :: cs) = .ok (.arr items, rest) := by
  rw [readValue, if_neg hdepth.ne, hcs]
  split
  case h_1 heq => exact absurd (List.cons.inj heq).1 hc
  case h_2 =>
    rw [hread]
    rfl

theorem readValue_obj_nil (hdepth : depth < depthLimit) (rest : List Char) :
    readValue depth (fuel + 1) ('\x7b' :: '\x7d' :: rest) = .ok (.obj [], rest) := by
  rw [readValue, if_neg hdepth.ne]
  rfl

theorem readValue_obj (hdepth : depth < depthLimit) (hcs : skipBlank cs = '"' :: cs')
    (hread : readMembers (depth + 1) fuel ('"' :: cs') = .ok (members, rest))
    (hnodup : (members.map Prod.fst).Nodup) :
    readValue depth (fuel + 1) ('\x7b' :: cs) = .ok (.obj members, rest) := by
  rw [readValue, if_neg hdepth.ne, hcs]
  change (readMembers (depth + 1) fuel ('"' :: cs') >>= _) = _
  rw [hread]
  change Except.ok (Json.obj (mergeMembers [] members), rest) = _
  rw [mergeMembers_nil_of_nodup hnodup]

section Spaced

variable (hlayout : layout.IsSpaced)

include hlayout

theorem skipBlank_closing (hc : isBlank c = false) (level : Nat) (rest : List Char) :
    skipBlank (layout.closing level ++ c :: rest) = c :: rest := by
  rw [skipBlank_append (hlayout.closing level)]
  exact skipBlank_of_ne hc

/-- The items are read one by one. Only what stands behind the blanks at their front counts. -/
theorem readItems_render (hitems : ∀ j ∈ item :: items, Readable depth j)
    (hreads : ∀ j ∈ item :: items, Reads layout depth (level + 1) j)
    (hfuel : 2 * ((render layout (level + 1) item).length +
      (renderItems layout level items).length) + 1 ≤ fuel)
    (hcs : skipBlank cs = render layout (level + 1) item ++ (renderItems layout level items ++
      (layout.closing level ++ ']' :: rest))) :
    readItems depth fuel cs = .ok (foundItems (item :: items), rest) := by
  induction items generalizing item fuel cs with
  | nil =>
    obtain ⟨fuel, rfl⟩ := Nat.exists_eq_add_one.mpr (Nat.zero_lt_of_lt hfuel)
    have hend : Ends (layout.closing level ++ ']' :: rest) :=
      ends_append (hlayout.closing level) (ends_cons (by decide))
    have hread := hreads item List.mem_cons_self fuel _ (by omega) hend
    apply readItems_last (hcs ▸ hread)
    exact skipBlank_closing hlayout (by decide) level rest
  | cons item' items ih =>
    obtain ⟨fuel, rfl⟩ := Nat.exists_eq_add_one.mpr (Nat.zero_lt_of_lt hfuel)
    obtain ⟨blanks, hbetween, hblanks⟩ := hlayout.between level
    obtain ⟨-, hitems⟩ := List.forall_mem_cons.mp hitems
    obtain ⟨hitem, hreads⟩ := List.forall_mem_cons.mp hreads
    rw [renderItems, hbetween] at hcs hfuel
    simp only [List.append_assoc, List.cons_append] at hcs
    simp only [List.length_append, List.length_cons] at hfuel
    have hread (cs : List Char) := hitem fuel (',' :: cs) (by omega) (ends_cons (.inr (.inl rfl)))
    apply readItems_more (hcs ▸ hread _) (skipBlank_of_ne (by decide))
    apply ih hitems hreads (by omega)
    rw [skipBlank_append hblanks]
    exact skipBlank_render (hitems item' List.mem_cons_self) layout (level + 1) _

theorem readMembers_render {m : String × Json} (hvalues : ∀ m' ∈ m :: members, Readable depth m'.2)
    (hreads : ∀ m' ∈ m :: members, Reads layout depth (level + 1) m'.2)
    (hfuel : 2 * ((render layout (level + 1) m.2).length +
      (renderMembers layout level members).length) + 1 ≤ fuel)
    (hcs : skipBlank cs = quote (text m.1) ++ ':' :: ' ' :: (render layout (level + 1) m.2 ++
      (renderMembers layout level members ++ (layout.closing level ++ '\x7d' :: rest)))) :
    readMembers depth fuel cs = .ok (foundMembers (m :: members), rest) := by
  have hvalue (rest : List Char) : skipBlank (' ' :: (render layout (level + 1) m.2 ++ rest)) =
      render layout (level + 1) m.2 ++ rest :=
    skipBlank_render (hvalues m List.mem_cons_self) layout (level + 1) rest
  induction members generalizing m fuel cs with
  | nil =>
    obtain ⟨fuel, rfl⟩ := Nat.exists_eq_add_one.mpr (Nat.zero_lt_of_lt hfuel)
    have hend : Ends (layout.closing level ++ '\x7d' :: rest) :=
      ends_append (hlayout.closing level) (ends_cons (by decide))
    have hread := hreads m List.mem_cons_self fuel _ (by omega) hend
    apply readMembers_last hcs (hvalue _ ▸ hread)
    exact skipBlank_closing hlayout (by decide) level rest
  | cons m' members ih =>
    obtain ⟨fuel, rfl⟩ := Nat.exists_eq_add_one.mpr (Nat.zero_lt_of_lt hfuel)
    obtain ⟨blanks, hbetween, hblanks⟩ := hlayout.between level
    obtain ⟨-, hvalues⟩ := List.forall_mem_cons.mp hvalues
    obtain ⟨hm, hreads⟩ := List.forall_mem_cons.mp hreads
    rw [renderMembers, hbetween] at hcs hfuel
    simp only [List.append_assoc, List.cons_append] at hcs
    simp only [List.length_append, List.length_cons] at hfuel
    have hread (cs : List Char) := hm fuel (',' :: cs) (by omega) (ends_cons (.inr (.inl rfl)))
    apply readMembers_more hcs (hvalue _ ▸ hread _) (skipBlank_of_ne (by decide))
    apply ih hvalues hreads (by omega)
    · rw [skipBlank_append hblanks, quote_append]
      exact skipBlank_of_ne (by decide)
    · exact skipBlank_render (hvalues m' List.mem_cons_self) layout (level + 1)

theorem reads_arr (hdepth : depth < depthLimit) (hitems : ∀ j ∈ items, Readable (depth + 1) j)
    (hreads : ∀ j ∈ items, Reads layout (depth + 1) (level + 1) j) :
    Reads layout depth level (.arr items) := by
  intro fuel rest hfuel hrest
  cases items with
  | nil =>
    obtain ⟨fuel, rfl⟩ := Nat.exists_eq_add_one.mpr (Nat.zero_lt_of_lt hfuel)
    exact readValue_arr_nil hdepth rest
  | cons item items =>
    obtain ⟨fuel, rfl⟩ := Nat.exists_eq_add_one.mpr (Nat.zero_lt_of_lt hfuel)
    obtain ⟨c, cs, hcs, hc, hbracket⟩ :=
      render_head (hitems item List.mem_cons_self) layout (level + 1)
    simp only [render, List.cons_append, List.append_assoc, List.nil_append, List.length_cons,
      List.length_append] at hfuel ⊢
    apply readValue_arr hdepth
    · rw [skipBlank_append (hlayout.opening level), hcs, List.cons_append]
      exact skipBlank_of_ne hc
    · exact hbracket
    · rw [← List.cons_append, ← hcs]
      apply readItems_render hlayout hitems hreads (by omega)
      exact skipBlank_render (hitems item List.mem_cons_self) layout (level + 1) _

theorem reads_obj (hdepth : depth < depthLimit) (hnodup : (members.map Prod.fst).Nodup)
    (hvalues : ∀ m ∈ members, Readable (depth + 1) m.2)
    (hreads : ∀ m ∈ members, Reads layout (depth + 1) (level + 1) m.2) :
    Reads layout depth level (.obj members) := by
  intro fuel rest hfuel hrest
  cases members with
  | nil =>
    obtain ⟨fuel, rfl⟩ := Nat.exists_eq_add_one.mpr (Nat.zero_lt_of_lt hfuel)
    exact readValue_obj_nil hdepth rest
  | cons m members =>
    obtain ⟨fuel, rfl⟩ := Nat.exists_eq_add_one.mpr (Nat.zero_lt_of_lt hfuel)
    simp only [render, List.cons_append, List.append_assoc, List.nil_append, List.length_cons,
      List.length_append] at hfuel ⊢
    apply readValue_obj hdepth
    · rw [skipBlank_append (hlayout.opening level), quote_append]
      exact skipBlank_of_ne (by decide)
    · apply readMembers_render hlayout hvalues hreads (by omega)
      rw [quote_append]
      exact skipBlank_of_ne (by decide)
    · rw [keys_foundMembers]
      exact hnodup

theorem reads_of_readable (h : Readable depth j) (level : Nat) : Reads layout depth level j := by
  induction h generalizing level with
  | null =>
    intro fuel rest hfuel _
    obtain ⟨fuel, rfl⟩ := Nat.exists_eq_add_one.mpr (Nat.zero_lt_of_lt hfuel)
    rfl
  | @bool _ b =>
    intro fuel rest hfuel _
    cases b <;> obtain ⟨fuel, rfl⟩ := Nat.exists_eq_add_one.mpr (Nat.zero_lt_of_lt hfuel) <;> rfl
  | int hn =>
    intro fuel rest hfuel hrest
    have hreadable : Readable depth (.int _) := .int hn
    obtain ⟨c, cs, hcs, -⟩ := render_head hreadable layout level
    rw [hcs] at hfuel
    obtain ⟨fuel, rfl⟩ := Nat.exists_eq_add_one.mpr (Nat.zero_lt_of_lt hfuel)
    exact readValue_int hn hrest
  | @str _ t =>
    intro fuel rest hfuel _
    obtain ⟨fuel, rfl⟩ := Nat.exists_eq_add_one.mpr (Nat.zero_lt_of_lt hfuel)
    exact readValue_quote t rest
  | arr hdepth hitems ih => exact reads_arr hlayout hdepth hitems fun j hj => ih j hj (level + 1)
  | obj hdepth hnodup hvalues ih =>
    exact reads_obj hlayout hdepth hnodup hvalues fun m hm => ih m hm (level + 1)

/-- A text that is a readable value with blanks behind it is read as what is found of the value. -/
theorem parse_render (h : Readable 0 j) (blanks : List Char)
    (hblanks : ∀ c ∈ blanks, isBlank c = true) :
    parse (render layout 0 j ++ blanks) = .ok (found j) := by
  have hskip : skipBlank blanks = [] := by
    rw [← List.append_nil blanks, skipBlank_append hblanks]
    rfl
  have hends : Ends blanks := by
    rw [← List.append_nil blanks]
    exact ends_append hblanks nofun
  have hread := reads_of_readable hlayout h 0 (2 * (render layout 0 j ++ blanks).length + 2) blanks
    (by rw [List.length_append]; omega) hends
  rw [parse, skipBlank_render h layout 0 blanks, hread]
  change (if (skipBlank blanks).isEmpty then _ else _) = _
  rw [hskip]
  rfl

end Spaced

theorem oneLine_isSpaced : oneLine.IsSpaced where
  opening _ := List.forall_mem_nil _
  between _ := ⟨[' '], rfl, List.forall_mem_singleton.mpr (by decide)⟩
  closing _ := List.forall_mem_nil _

theorem foundMembers_texts (members : List (String × Text)) :
    foundMembers (members.map fun m => (m.1, .str m.2)) =
      members.map fun m => (m.1, .str (m.2.map readBack)) := by
  induction members with
  | nil => rfl
  | cons m members ih => rw [List.map_cons, foundMembers, ih, List.map_cons, found]

theorem parse_compact_ofTexts {members : List (String × Text)} (h : (members.map Prod.fst).Nodup) :
    parse (ofTexts members).compact.toList =
      .ok (ofTexts (members.map fun m => (m.1, m.2.map readBack))) := by
  have hreadable : Readable 0 (ofTexts members) := by
    apply Readable.obj (by decide)
    · rw [List.map_map]
      exact h
    · rw [List.forall_mem_map]
      exact fun m _ => .str
  have hparse := parse_render oneLine_isSpaced hreadable [] (List.forall_mem_nil _)
  rw [List.append_nil] at hparse
  rw [compact, String.toList_ofList, hparse, ofTexts, found, foundMembers_texts, ofTexts,
    List.map_map]
  rfl

theorem isVisible_member (m : String × Text) (h : ∀ c ∈ rest, isVisible c = true) :
    ∀ c ∈ quote (text m.1) ++ ':' :: ' ' :: (quote m.2 ++ rest), isVisible c = true := by
  rw [List.forall_mem_append, List.forall_mem_cons, List.forall_mem_cons, List.forall_mem_append]
  exact ⟨isVisible_quote _, by decide, by decide, isVisible_quote _, h⟩

theorem isVisible_renderMembers (members : List (String × Text)) :
    ∀ c ∈ renderMembers oneLine 0 (members.map fun m => (m.1, .str m.2)) ++ ['\x7d'],
      isVisible c = true := by
  induction members with
  | nil => exact List.all_eq_true.mp (by decide)
  | cons m members ih =>
    simp only [List.map_cons, renderMembers, render, oneLine, List.cons_append, List.nil_append,
      List.append_assoc] at ih ⊢
    rw [List.forall_mem_cons, List.forall_mem_cons]
    exact ⟨by decide, by decide, isVisible_member m ih⟩

theorem isVisible_compact_ofTexts (members : List (String × Text)) :
    ∀ c ∈ (ofTexts members).compact.toList, isVisible c = true := by
  rw [compact, String.toList_ofList]
  cases members with
  | nil => exact List.all_eq_true.mp (by decide)
  | cons m members =>
    simp only [ofTexts, List.map_cons, render, oneLine, List.cons_append, List.nil_append,
      List.append_assoc]
    rw [List.forall_mem_cons]
    exact ⟨by decide, isVisible_member m (isVisible_renderMembers members)⟩

end ResourceScript.Json

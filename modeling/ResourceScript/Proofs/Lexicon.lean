import Mathlib.Data.List.Induction
import Mathlib.Data.Nat.Digits.Defs
import Mathlib.Tactic.Ring
import ResourceScript.Proofs.Gaps
import ResourceScript.Proofs.LiteralUnits

namespace ResourceScript

/-- Digits in a base and the number that they denote. -/
inductive IsNumeral (base : Nat) : List Char → Nat → Prop where
  | mk : cs ≠ [] → List.Forall₂ (fun c d => Text.hexValue? c = some d ∧ d < base) cs ds →
      IsNumeral base cs (Nat.ofDigits base ds.reverse)

/-- A number without a sign: in decimal, or in hexadecimal behind a mark. -/
inductive IsMagnitude : List Char → Nat → Prop where
  | decimal : IsNumeral 10 cs n → IsMagnitude cs n
  | dollar : IsNumeral 16 cs n → IsMagnitude ('$' :: cs) n
  | hexadecimal : x = 'x' ∨ x = 'X' → IsNumeral 16 cs n → IsMagnitude ('0' :: x :: cs) n

/-- Perhaps a minus sign, then a number. -/
inductive IsSigned (P : List Char → Nat → Prop) : List Char → Int → Prop where
  | plain : P cs n → IsSigned P cs n
  | minus : P cs n → IsSigned P ('-' :: cs) (-n)

namespace Lexicon

def marks : List (Char × Lexeme) :=
  [('(', .leftParen), (')', .rightParen), ('\x7b', .leftBrace), ('\x7d', .rightBrace),
    ('=', .equals), (';', .semicolon), (',', .comma), ('|', .pipe)]

/-- The characters of a token, or of a piece that may stand between tokens. -/
inductive Spells : List Char → Option Lexeme → Prop where
  | blanks : c ∈ [' ', '\t', '\r', '\n'] → (∀ d ∈ cs, d ∈ [' ', '\t', '\r', '\n']) →
      Spells (c :: cs) none
  | line : '\n' ∉ body → Spells ('/' :: '/' :: body) none
  | block : ¬['*', '/'] <:+: body → Spells ('/' :: '*' :: (body ++ ['*', '/'])) none
  | mark : (c, lexeme) ∈ marks → Spells [c] (some lexeme)
  | identifier : Piece.isNameStart c = true → (∀ d ∈ cs, Piece.isNameChar d = true) →
      Spells (c :: cs) (some .identifier)
  | string : LiteralUnit.Reads body units →
      Spells ('"' :: (body ++ ['"'])) (some (.string (units.flatMap LiteralUnit.text)))
  | resourceId : IsSigned (IsNumeral 10) cs n → Spells ('#' :: cs) (some (.resourceId n))
  | integer : IsSigned IsMagnitude cs n → Spells cs (some (.integer n))

/-- The longest piece at the front of a text. -/
structure Munch (cs text : List Char) (lexeme : Option Lexeme) : Prop where
  front : text <+: cs
  spells : Spells text lexeme
  longest : ∀ text' lexeme', text' <+: cs → Spells text' lexeme' → text'.length ≤ text.length

def Stuck (cs : List Char) : Prop :=
  cs ≠ [] ∧ ∀ text lexeme, text <+: cs → ¬Spells text lexeme

end Lexicon

namespace Piece

variable {base n : Nat} {m : Int} {c : Char} {cs ds digits text r more : List Char}
  {p : Char → Bool}
  {piece : Piece} {lexeme lexeme' : Option Lexeme}

theorem isDigit_iff : isDigit c = true ↔ ∃ d, Text.hexValue? c = some d ∧ d < 10 := by
  rw [isDigit, Text.hexValue?]
  cases hc : '0' ≤ c && c ≤ '9' with
  | true =>
    have hle : c.toNat ≤ 57 := (by simpa using hc : _ ∧ c ≤ '9').2
    refine ⟨fun _ => ⟨_, rfl, ?_⟩, fun _ => rfl⟩
    change c.toNat - 48 < 10
    omega
  | false =>
    refine ⟨fun h => absurd h Bool.false_ne_true, ?_⟩
    rintro ⟨d, hd, hlt⟩
    simp only [Bool.false_eq_true, if_false] at hd
    split at hd
    · cases hd
      omega
    · split at hd
      · cases hd
        omega
      · cases hd

theorem isHexDigit_iff : isHexDigit c = true ↔ ∃ d, Text.hexValue? c = some d ∧ d < 16 := by
  rw [isHexDigit, Option.isSome_iff_exists]
  exact exists_congr fun d => ⟨fun h => ⟨h, hexValue?_lt h⟩, And.left⟩

theorem ofDigits_reverse (base : Nat) (ds : List Nat) :
    Nat.ofDigits base ds.reverse = Text.ofDigits base ds := by
  induction ds using List.reverseRecOn with
  | nil => rfl
  | append_singleton ds d ih =>
    rw [List.reverse_append, List.reverse_singleton, List.singleton_append, Nat.ofDigits_cons, ih,
      Text.ofDigits, Text.ofDigits, List.foldl_append, List.foldl_cons, List.foldl_nil]
    ring

theorem forall₂_digits : List.Forall₂ (fun c d => Text.hexValue? c = some d ∧ d < base) cs values ↔
    (∀ c ∈ cs, ∃ d, Text.hexValue? c = some d ∧ d < base) ∧
      values = cs.map fun c => (Text.hexValue? c).getD 0 := by
  constructor
  · intro h
    induction h with
    | nil => exact ⟨List.forall_mem_nil _, rfl⟩
    | cons hd _ ih =>
      refine ⟨List.forall_mem_cons.mpr ⟨⟨_, hd⟩, ih.1⟩, ?_⟩
      rw [List.map_cons, hd.1, ← ih.2]
      rfl
  · rintro ⟨hall, rfl⟩
    rw [List.forall₂_map_right_iff, List.forall₂_same]
    intro c hc
    obtain ⟨d, hd, hlt⟩ := hall c hc
    rw [hd]
    exact ⟨rfl, hlt⟩

theorem isNumeral_iff : IsNumeral base cs n ↔
    cs ≠ [] ∧ (∀ c ∈ cs, ∃ d, Text.hexValue? c = some d ∧ d < base) ∧ n = valueOf base cs := by
  constructor
  · rintro ⟨hne, hds⟩
    obtain ⟨hall, rfl⟩ := forall₂_digits.mp hds
    exact ⟨hne, hall, ofDigits_reverse base _⟩
  · rintro ⟨hne, hall, rfl⟩
    rw [valueOf, ← ofDigits_reverse]
    exact .mk hne (forall₂_digits.mpr ⟨hall, rfl⟩)

theorem isNumeral_decimal :
    IsNumeral 10 cs n ↔ cs ≠ [] ∧ (∀ c ∈ cs, isDigit c = true) ∧ n = valueOf 10 cs := by
  simp only [isNumeral_iff, isDigit_iff]

theorem isNumeral_hexadecimal :
    IsNumeral 16 cs n ↔ cs ≠ [] ∧ (∀ c ∈ cs, isHexDigit c = true) ∧ n = valueOf 16 cs := by
  simp only [isNumeral_iff, isHexDigit_iff]

/-- What a scanner takes off the front of a text that starts with `text`: that, with the value `a`,
or something longer. -/
def TakesLongest (text : List Char) (a : α) (result : Option (List Char × α)) : Prop :=
  ∃ taken b, result = some (taken, b) ∧ (text.length < taken.length ∨ taken = text ∧ b = a)

theorem TakesLongest.map {result : Option (List Char × α)} (h : TakesLongest text a result)
    (front : List Char) (f : α → β) :
    TakesLongest (front ++ text) (f a) (result.map fun x => (front ++ x.1, f x.2)) := by
  obtain ⟨taken, b, rfl, hlt | ⟨rfl, rfl⟩⟩ := h
  · exact ⟨_, _, rfl, .inl (by simpa using hlt)⟩
  · exact ⟨_, _, rfl, .inr ⟨rfl, rfl⟩⟩

theorem takesLongest_takeWhile {f : List Char → α} (hne : cs ≠ []) (h : ∀ c ∈ cs, p c = true)
    (r : List Char) : (cs ++ r).takeWhile p ≠ [] ∧
      TakesLongest cs (f cs) (some ((cs ++ r).takeWhile p, f ((cs ++ r).takeWhile p))) := by
  rw [List.takeWhile_append_of_pos h]
  refine ⟨by simp [hne], _, _, rfl, ?_⟩
  cases hr : r.takeWhile p with
  | nil => exact .inr ⟨List.append_nil cs, by rw [List.append_nil]⟩
  | cons d ds => exact .inl (by simp)

theorem decimal?_of_ne (h : cs.takeWhile isDigit ≠ []) :
    decimal? cs = some (cs.takeWhile isDigit, valueOf 10 (cs.takeWhile isDigit)) := by
  rw [decimal?]
  split
  · exact absurd ‹_› h
  · rfl

theorem magnitude?_dollar (h : cs.takeWhile isHexDigit ≠ []) : magnitude? ('$' :: cs) =
    some ('$' :: cs.takeWhile isHexDigit, valueOf 16 (cs.takeWhile isHexDigit)) := by
  rw [magnitude?]
  split
  · exact absurd ‹_› h
  · rfl

theorem magnitude?_hexadecimal {x : Char} (hx : x = 'x' ∨ x = 'X')
    (h : cs.takeWhile isHexDigit ≠ []) : magnitude? ('0' :: x :: cs) =
      some ('0' :: x :: cs.takeWhile isHexDigit, valueOf 16 (cs.takeWhile isHexDigit)) := by
  rw [magnitude?]
  split
  · exact absurd ‹_› h
  · rw [if_pos hx]

theorem decimal?_longest (h : IsNumeral 10 cs n) (r : List Char) :
    TakesLongest cs n (decimal? (cs ++ r)) := by
  obtain ⟨hne, hall, rfl⟩ := isNumeral_decimal.mp h
  obtain ⟨htaken, hlongest⟩ := takesLongest_takeWhile (f := valueOf 10) hne hall r
  rwa [decimal?_of_ne htaken]

theorem exists_zero_of_isHexadecimal (h : IsNumeral 10 cs n) (hx : IsHexadecimal (cs ++ r)) :
    ∃ x d rest, cs = ['0'] ∧ r = x :: d :: rest ∧ (x = 'x' ∨ x = 'X') ∧ isHexDigit d = true := by
  obtain ⟨hne, hall, -⟩ := isNumeral_decimal.mp h
  obtain _ | ⟨c, cs⟩ := cs
  · exact absurd rfl hne
  obtain ⟨hc, hcs⟩ := List.forall_mem_cons.mp hall
  obtain ⟨rest, he⟩ | ⟨x, d, rest, he, hxs, hd⟩ := hx
  · obtain ⟨rfl, -⟩ := List.cons.inj he
    exact absurd hc (by decide)
  obtain ⟨rfl, hr⟩ := List.cons.inj he
  obtain _ | ⟨c, cs⟩ := cs
  · exact ⟨x, d, rest, rfl, hr, hxs, hd⟩
  · obtain ⟨rfl, -⟩ := List.cons.inj hr
    have hdigit := hcs c List.mem_cons_self
    obtain rfl | rfl := hxs <;> exact absurd hdigit (by decide)

theorem magnitude?_longest (h : IsMagnitude cs n) (r : List Char) :
    TakesLongest cs n (magnitude? (cs ++ r)) := by
  cases h with
  | decimal h =>
    by_cases hx : IsHexadecimal (cs ++ r)
    · -- A zero that goes on as a hexadecimal numeral.
      obtain ⟨x, d, rest, rfl, rfl, hx, hd⟩ := exists_zero_of_isHexadecimal h hx
      have hne : (d :: rest).takeWhile isHexDigit ≠ [] := by simp [hd]
      rw [List.singleton_append, magnitude?_hexadecimal hx hne]
      exact ⟨_, _, rfl, .inl (by simp)⟩
    · rw [magnitude?_of_decimal hx]
      exact decimal?_longest h r
  | dollar h =>
    obtain ⟨hne, hall, rfl⟩ := isNumeral_hexadecimal.mp h
    obtain ⟨htaken, hlongest⟩ := takesLongest_takeWhile (f := valueOf 16) hne hall r
    rw [List.cons_append, magnitude?_dollar htaken]
    exact hlongest.map ['$'] id
  | hexadecimal hx h =>
    obtain ⟨hne, hall, rfl⟩ := isNumeral_hexadecimal.mp h
    obtain ⟨htaken, hlongest⟩ := takesLongest_takeWhile (f := valueOf 16) hne hall r
    rw [List.cons_append, List.cons_append, magnitude?_hexadecimal hx htaken]
    exact hlongest.map ['0', _] id

theorem exists_head_of_isMagnitude (h : IsMagnitude cs n) :
    ∃ c ds, cs = c :: ds ∧ (isDigit c = true ∨ c = '$') := by
  cases h with
  | decimal h =>
    obtain ⟨hne, hall, -⟩ := isNumeral_decimal.mp h
    obtain ⟨c, ds, rfl⟩ := List.exists_cons_of_ne_nil hne
    exact ⟨c, ds, rfl, .inl (hall c List.mem_cons_self)⟩
  | dollar => exact ⟨_, _, rfl, .inr rfl⟩
  | hexadecimal => exact ⟨_, _, rfl, .inl rfl⟩

theorem ne_minus_of_isMagnitude (h : IsMagnitude cs n) (r rest : List Char) :
    cs ++ r ≠ '-' :: rest := by
  obtain ⟨c, ds, rfl, hc⟩ := exists_head_of_isMagnitude h
  intro he
  obtain ⟨rfl, -⟩ := List.cons.inj he
  exact absurd hc (by decide)

theorem numeral?_plain (h : ∀ rest, cs ≠ '-' :: rest) :
    numeral? cs = (magnitude? cs).map fun x => (x.1, (x.2 : Int)) := by
  rw [numeral?]
  exact h

theorem numeral?_longest (h : IsSigned IsMagnitude cs m) (r : List Char) :
    TakesLongest cs m (numeral? (cs ++ r)) := by
  cases h with
  | plain h =>
    rw [numeral?_plain (ne_minus_of_isMagnitude h r)]
    exact (magnitude?_longest h r).map [] Int.ofNat
  | minus h => exact (magnitude?_longest h r).map ['-'] fun n => -(n : Int)

theorem idNumber?_longest (h : IsSigned (IsNumeral 10) cs m) (r : List Char) :
    TakesLongest cs m (idNumber? (cs ++ r)) := by
  cases h with
  | plain h =>
    rw [idNumber?_plain (ne_minus_of_isMagnitude (.decimal h) r)]
    exact (decimal?_longest h r).map [] Int.ofNat
  | minus h =>
    rw [List.cons_append, idNumber?_minus]
    exact (decimal?_longest h r).map ['-'] fun n => -(n : Int)

theorem isNameStart_of_isDigit (h : isDigit c = true) : isNameStart c = false := by
  have hle : c ≤ '9' := (by simpa [isDigit] using h : _ ∧ c ≤ '9').2
  have hupper : ¬('A' ≤ c) := fun h => absurd (Char.le_trans h hle) (by decide)
  have hlower : ¬('a' ≤ c) := fun h => absurd (Char.le_trans h hle) (by decide)
  have hline : c ≠ '_' := by
    rintro rfl
    cases h
  simp [isNameStart, hupper, hlower, hline]

theorem at?_numeral (hc : (isDigit c = true ∨ c = '$') ∨ c = '-') (cs : List Char) :
    at? c cs = (numeral? (c :: cs)).map fun x => token (.integer x.2) x.1.tail := by
  have hgap : isGapChar c = false := by
    rw [← Bool.not_eq_true, isGapChar_iff]
    intro hgap
    simp only [List.mem_cons, List.not_mem_nil, or_false] at hgap
    obtain rfl | rfl | rfl | rfl := hgap <;> exact absurd hc (by decide)
  have hname : isNameStart c = false := by
    obtain (hdigit | rfl) | rfl := hc
    · exact isNameStart_of_isDigit hdigit
    · rfl
    · rfl
  rw [at?, hgap, hname]
  · rfl
  all_goals
    rintro rfl
    exact absurd hc (by decide)

theorem exists_head_of_isSigned (h : IsSigned IsMagnitude cs m) :
    ∃ c ds, cs = c :: ds ∧ ((isDigit c = true ∨ c = '$') ∨ c = '-') := by
  cases h with
  | plain h =>
    obtain ⟨c, ds, rfl, hc⟩ := exists_head_of_isMagnitude h
    exact ⟨c, ds, rfl, .inl hc⟩
  | minus => exact ⟨'-', _, rfl, .inr rfl⟩

theorem at?_mark {l : Lexeme} (h : (c, l) ∈ Lexicon.marks) (cs : List Char) :
    at? c cs = some (token l []) := by
  simp only [Lexicon.marks, List.mem_cons, List.not_mem_nil, or_false, Prod.mk.injEq] at h
  obtain ⟨rfl, rfl⟩ | ⟨rfl, rfl⟩ | ⟨rfl, rfl⟩ | ⟨rfl, rfl⟩ | ⟨rfl, rfl⟩ | ⟨rfl, rfl⟩ | ⟨rfl, rfl⟩ |
    ⟨rfl, rfl⟩ := h <;> rfl

theorem takeWhile_longest (h : ∀ d ∈ cs, p d = true) (r : List Char) :
    cs.length < ((cs ++ r).takeWhile p).length ∨ (cs ++ r).takeWhile p = cs := by
  rw [List.takeWhile_append_of_pos h]
  cases r.takeWhile p with
  | nil => exact .inr (List.append_nil cs)
  | cons d ds => exact .inl (by simp)

theorem at?_of_spells (h : Lexicon.Spells (c :: more) lexeme) (r : List Char) :
    ∃ piece, at? c (more ++ r) = some piece ∧
      (more.length < piece.more.length ∨ piece = ⟨lexeme, more⟩) := by
  cases h with
  | blanks hc hmore =>
    have hall (d : Char) (hd : d ∈ more) : isGapChar d = true := isGapChar_iff.mpr (hmore d hd)
    refine ⟨_, at?_blank (isGapChar_iff.mpr hc) _, ?_⟩
    exact (takeWhile_longest hall r).imp id (congrArg gap)
  | @line body hbody =>
    have hall (d : Char) (hd : d ∈ body) : (d != '\n') = true := by
      rw [bne_iff_ne]
      rintro rfl
      exact hbody hd
    refine ⟨_, at?_comment (body ++ r), ?_⟩
    exact (takeWhile_longest hall r).imp Nat.succ_lt_succ fun he => congrArg (gap <| '/' :: ·) he
  | @block body hbody =>
    refine ⟨_, ?_, .inr rfl⟩
    rw [List.cons_append, List.append_assoc]
    exact at?_block hbody r
  | mark hmark => exact ⟨_, at?_mark hmark r, .inr rfl⟩
  | identifier hc hmore =>
    have hgap : ¬isGapChar c = true := by
      rw [isGapChar_iff]
      intro hgap
      simp only [List.mem_cons, List.not_mem_nil, or_false] at hgap
      obtain rfl | rfl | rfl | rfl := hgap <;> cases hc
    refine ⟨_, at?_name hgap hc _, ?_⟩
    exact (takeWhile_longest hmore r).imp id (congrArg (token .identifier))
  | string hu =>
    refine ⟨_, ?_, .inr rfl⟩
    change (stringRest? (_ ++ ['"'] ++ r)).map
      (fun more => token (.string (unescape more.dropLast)) more) = _
    rw [List.append_assoc, List.singleton_append, hu.stringRest?_eq, Option.map_some,
      List.dropLast_concat, hu.unescape_eq]
    rfl
  | resourceId hn =>
    obtain ⟨taken, m, hid, hlongest⟩ := idNumber?_longest hn r
    refine ⟨token (.resourceId m) taken, ?_, hlongest.imp id ?_⟩
    · change (idNumber? (more ++ r)).map (fun x => token (.resourceId x.2) x.1) = _
      rw [hid, Option.map_some]
    · rintro ⟨rfl, rfl⟩
      rfl
  | integer hn =>
    obtain ⟨_, _, he, hc⟩ := exists_head_of_isSigned hn
    obtain ⟨rfl, rfl⟩ := List.cons.inj he
    obtain ⟨taken, m, hnumeral, hlongest⟩ := numeral?_longest hn r
    refine ⟨token (.integer m) taken.tail, ?_, hlongest.imp ?_ ?_⟩
    · rw [at?_numeral hc, ← List.cons_append, hnumeral, Option.map_some]
    · intro hlt
      simp only [token, List.length_cons, List.length_tail] at hlt ⊢
      omega
    · rintro ⟨rfl, rfl⟩
      rfl

theorem isNumeral_of_decimal? (h : decimal? cs = some (digits, n)) : IsNumeral 10 digits n := by
  have hds := h
  obtain ⟨-, hne, hall⟩ := decimal?_takes (q := fun _ => True) h
  rw [decimal?] at hds
  split at hds
  · cases hds
  · cases hds
    exact isNumeral_decimal.mpr ⟨hne, hall, rfl⟩

theorem isNumeral_takeWhile (h : cs.takeWhile isHexDigit ≠ []) :
    IsNumeral 16 (cs.takeWhile isHexDigit) (valueOf 16 (cs.takeWhile isHexDigit)) :=
  isNumeral_hexadecimal.mpr ⟨h, fun _ hc => List.mem_takeWhile_imp hc, rfl⟩

theorem isMagnitude_of_magnitude? (h : magnitude? cs = some (digits, n)) :
    IsMagnitude digits n := by
  unfold magnitude? at h
  split at h
  case h_1 x rest =>
    split at h
    case h_1 => exact .decimal (isNumeral_of_decimal? h)
    case h_2 hne =>
      split at h
      case isTrue hx =>
        cases h
        exact .hexadecimal hx (isNumeral_takeWhile hne)
      case isFalse => exact .decimal (isNumeral_of_decimal? h)
  case h_2 rest =>
    split at h
    case h_1 => cases h
    case h_2 hne =>
      cases h
      exact .dollar (isNumeral_takeWhile hne)
  case h_3 => exact .decimal (isNumeral_of_decimal? h)

theorem isSigned_of_numeral? (h : numeral? cs = some (digits, m)) :
    IsSigned IsMagnitude digits m := by
  unfold numeral? at h
  split at h <;> obtain ⟨⟨ds, n⟩, hn, h⟩ := Option.map_eq_some_iff.mp h <;> cases h
  · exact .minus (isMagnitude_of_magnitude? hn)
  · exact .plain (isMagnitude_of_magnitude? hn)

theorem isSigned_of_idNumber? (h : idNumber? cs = some (digits, m)) :
    IsSigned (IsNumeral 10) digits m := by
  by_cases hminus : ∃ rest, cs = '-' :: rest
  · obtain ⟨rest, rfl⟩ := hminus
    rw [idNumber?_minus] at h
    obtain ⟨⟨ds, n⟩, hn, h⟩ := Option.map_eq_some_iff.mp h
    cases h
    exact .minus (isNumeral_of_decimal? hn)
  · rw [idNumber?_plain fun rest he => hminus ⟨rest, he⟩] at h
    obtain ⟨⟨ds, n⟩, hn, h⟩ := Option.map_eq_some_iff.mp h
    cases h
    exact .plain (isNumeral_of_decimal? hn)

theorem exists_body_of_commentRest? (h : commentRest? cs = some more) :
    ∃ body, more = body ++ ['*', '/'] ∧ ¬['*', '/'] <:+: body := by
  fun_induction commentRest? cs generalizing more with
  | case1 => cases h
  | case2 rest =>
    cases h
    exact ⟨[], rfl, by simp⟩
  | case3 c cs hend ih =>
    obtain ⟨more, hm, rfl⟩ := Option.map_eq_some_iff.mp h
    obtain ⟨r, hcs, -⟩ := commentRest?_takes hm
    obtain ⟨body, rfl, hbody⟩ := ih hm
    refine ⟨c :: body, rfl, fun hinfix => ?_⟩
    obtain hfront | hinfix := List.infix_cons_iff.mp hinfix
    · obtain ⟨ds, he⟩ := hfront
      obtain ⟨rfl, rfl⟩ := List.cons.inj he
      exact hend _ rfl hcs
    · exact hbody hinfix

theorem spells_of_at? (h : at? c cs = some piece) :
    Lexicon.Spells (c :: piece.more) piece.lexeme := by
  by_cases hgap : isGapChar c = true
  · rw [at?_blank hgap] at h
    cases h
    exact .blanks (isGapChar_iff.mp hgap) fun d hd => isGapChar_iff.mp (List.mem_takeWhile_imp hd)
  by_cases hname : isNameStart c = true
  · rw [at?_name hgap hname] at h
    cases h
    exact .identifier hname fun d hd => List.mem_takeWhile_imp hd
  unfold at? at h
  rw [if_neg hgap, if_neg hname] at h
  split at h
  case h_9 =>
    split at h
    case h_1 rest =>
      cases h
      exact .line fun hline => by simpa using List.mem_takeWhile_imp hline
    case h_2 rest =>
      obtain ⟨more, hm, rfl⟩ := Option.map_eq_some_iff.mp h
      obtain ⟨body, rfl, hbody⟩ := exists_body_of_commentRest? hm
      exact .block hbody
    case h_3 => cases h
  case h_10 =>
    obtain ⟨more, hm, rfl⟩ := Option.map_eq_some_iff.mp h
    obtain ⟨body, units, rfl, hu⟩ := LiteralUnit.exists_reads hm
    have hvalue : unescape (body ++ ['"']).dropLast = units.flatMap LiteralUnit.text := by
      rw [List.dropLast_concat, hu.unescape_eq]
    rw [hvalue]
    exact .string hu
  case h_11 =>
    obtain ⟨⟨more, n⟩, hm, rfl⟩ := Option.map_eq_some_iff.mp h
    exact .resourceId (isSigned_of_idNumber? hm)
  case h_12 =>
    obtain ⟨⟨digits, n⟩, hm, rfl⟩ := Option.map_eq_some_iff.mp h
    obtain ⟨⟨r, hcs, -⟩, hne⟩ := numeral?_takes (q := fun _ => True) hm
    obtain ⟨d, ds, rfl⟩ := List.exists_cons_of_ne_nil hne
    obtain ⟨rfl, rfl⟩ := List.cons.inj hcs
    exact .integer (isSigned_of_numeral? hm)
  all_goals
    cases h
    exact .mark (by decide)

end Piece

namespace Lexicon

variable {c : Char} {cs text text' : List Char} {lexeme lexeme' : Option Lexeme} {piece : Piece}

theorem Spells.ne_nil (h : Spells text lexeme) : text ≠ [] := by
  cases h with
  | integer hn =>
    obtain ⟨c, ds, rfl, -⟩ := Piece.exists_head_of_isSigned hn
    exact List.cons_ne_nil c ds
  | _ => exact List.cons_ne_nil _ _

theorem length_le_of_spells (hp : Piece.at? c cs = some piece) (hfront : text <+: c :: cs)
    (h : Spells text lexeme) : text.length ≤ (c :: piece.more).length := by
  obtain ⟨d, more, rfl⟩ := List.exists_cons_of_ne_nil h.ne_nil
  obtain ⟨r, he⟩ := hfront
  obtain ⟨rfl, rfl⟩ := List.cons.inj he
  obtain ⟨piece', hp', hlongest⟩ := Piece.at?_of_spells h r
  obtain rfl : piece' = piece := Option.some.inj (hp'.symm.trans hp)
  obtain hlt | rfl := hlongest
  · exact Nat.succ_le_succ (Nat.le_of_lt hlt)
  · exact Nat.le_refl _

theorem munch_of_at? (h : Piece.at? c cs = some piece) :
    Munch (c :: cs) (c :: piece.more) piece.lexeme where
  front := by
    obtain ⟨r, hcs, -⟩ := Piece.at?_takes h
    exact ⟨r, by rw [List.cons_append, ← hcs]⟩
  spells := Piece.spells_of_at? h
  longest _ _ hfront hs := length_le_of_spells h hfront hs

theorem Munch.at?_eq (h : Munch cs text lexeme) :
    ∃ c more r, cs = c :: (more ++ r) ∧ text = c :: more ∧
      Piece.at? c (more ++ r) = some ⟨lexeme, more⟩ := by
  obtain ⟨⟨r, rfl⟩, hs, hlongest⟩ := h
  obtain ⟨c, more, rfl⟩ := List.exists_cons_of_ne_nil hs.ne_nil
  obtain ⟨piece, hp, hlt | rfl⟩ := Piece.at?_of_spells hs r
  · have hle := hlongest _ _ (munch_of_at? hp).front (munch_of_at? hp).spells
    exact absurd (Nat.le_of_succ_le_succ hle) (Nat.not_le_of_lt hlt)
  · exact ⟨c, more, r, rfl, rfl, hp⟩

theorem Munch.unique (h : Munch cs text lexeme) (h' : Munch cs text' lexeme') :
    text' = text ∧ lexeme' = lexeme := by
  obtain ⟨c, more, r, rfl, rfl, hp⟩ := h.at?_eq
  obtain ⟨d, more', r', he, rfl, hp'⟩ := h'.at?_eq
  obtain ⟨rfl, hr⟩ := List.cons.inj he
  rw [hr] at hp
  have hpiece := hp'.symm.trans hp
  cases hpiece
  exact ⟨rfl, rfl⟩

theorem Munch.not_stuck (h : Munch cs text lexeme) : ¬Stuck cs :=
  fun hstuck => hstuck.2 text lexeme h.front h.spells

theorem stuck_of_at? (h : Piece.at? c cs = none) : Stuck (c :: cs) := by
  refine ⟨List.cons_ne_nil c cs, fun text lexeme hfront hs => ?_⟩
  obtain ⟨d, more, rfl⟩ := List.exists_cons_of_ne_nil hs.ne_nil
  obtain ⟨r, he⟩ := hfront
  obtain ⟨rfl, rfl⟩ := List.cons.inj he
  obtain ⟨piece, hp, -⟩ := Piece.at?_of_spells hs r
  cases h.symm.trans hp

theorem Spells.munch (h : Spells text lexeme) : Munch text text lexeme :=
  ⟨List.prefix_refl text, h, fun _ _ hfront _ => hfront.length_le⟩

theorem Spells.tokenizeFrom_eq {token : Lexeme} (h : Spells text (some token))
    (hread : Piece.isTooLong token text = false) (p : Position) : tokenizeFrom p text =
      .ok [⟨token, String.ofList text, p⟩, Token.endOfInput (p.after text)] := by
  obtain ⟨c, more, r, htext, rfl, hp⟩ := h.munch.at?_eq
  obtain rfl : r = [] := List.self_eq_append_right.mp (List.cons.inj htext).2
  let piece := Piece.token token more
  have hpiece : Piece.at? c (piece.more ++ ([] ++ [])) = some piece := hp
  have hscan : Scans [] p (c :: (piece.more ++ [])) (piece.tokens c p ++ []) :=
    .piece hpiece hread .nil
  have htokens := tokenizeFrom_of_scans hscan
  rw [List.append_nil] at htokens
  exact htokens

end Lexicon

end ResourceScript

import Mathlib.Data.List.TakeWhile
import ResourceScript.Script.Tokenize

namespace ResourceScript.Piece

/-- A character that is no part of a name nor of a number. -/
def IsMark (d : Char) : Prop :=
  isNameChar d = false

/-- What may stand behind a piece in place of `r`: the front of `r`, or all of it and then a mark,
one with `q` if that comes next to the piece. -/
def MayFollow (q : Char → Prop) (r r' : List Char) : Prop :=
  r' <+: r ∨ ∃ d ds, IsMark d ∧ (r = [] → q d) ∧ r' = r ++ d :: ds

/-- The scanner takes `more` off the front of the text and gives `a`, whatever may follow. -/
def Takes (q : Char → Prop) (f : List Char → Option α) (cs more : List Char) (a : α) : Prop :=
  ∃ r, cs = more ++ r ∧ ∀ r', MayFollow q r r' → f (more ++ r') = some a

variable {q : Char → Prop} {p : Char → Bool} {c d : Char} {r r' cs more digits : List Char}
  {n : Nat} {m : Int}

theorem MayFollow.head (h : MayFollow q r r') (hr : ∀ d ∈ r.head?, p d = false)
    (hs : ∀ d, IsMark d → q d → p d = false) : ∀ d ∈ r'.head?, p d = false := by
  obtain ⟨ds, rfl⟩ | ⟨d, ds, hd, hq, rfl⟩ := h
  · cases r' with
    | nil => simp
    | cons c cs => exact hr
  · cases r with
    | nil => simpa using hs d hd (hq rfl)
    | cons c cs => exact hr

theorem takeWhile_append_eq_iff :
    (more ++ r).takeWhile p = more ↔ (∀ c ∈ more, p c = true) ∧ ∀ d ∈ r.head?, p d = false := by
  induction more with
  | nil => cases r <;> simp [List.takeWhile_cons]
  | cons c more ih => cases hc : p c <;> simp [hc, ih]

theorem takeWhile_takes (hs : ∀ d, IsMark d → q d → p d = false) (cs : List Char) :
    ∃ r, cs = cs.takeWhile p ++ r ∧
      ∀ r', MayFollow q r r' → (cs.takeWhile p ++ r').takeWhile p = cs.takeWhile p := by
  have hsplit : cs.takeWhile p ++ cs.dropWhile p = cs := List.takeWhile_append_dropWhile
  obtain ⟨hall, hhead⟩ := takeWhile_append_eq_iff.mp (congrArg (List.takeWhile p) hsplit)
  exact ⟨_, hsplit.symm, fun r' hr => takeWhile_append_eq_iff.mpr ⟨hall, hr.head hhead hs⟩⟩

theorem isDigit_of_isMark (h : IsMark d) : isDigit d = false := by
  rw [IsMark, isNameChar, Bool.or_eq_false_iff] at h
  exact h.2

theorem isHexDigit_of_isMark (h : IsMark d) : isHexDigit d = false := by
  rw [IsMark, isNameChar, Bool.or_eq_false_iff] at h
  obtain ⟨hstart, hdigit⟩ := h
  rw [isHexDigit, Text.hexValue?]
  rw [isDigit] at hdigit
  simp only [hdigit, Bool.false_eq_true, if_false]
  simp only [isNameStart, Bool.or_eq_false_iff, Bool.and_eq_false_iff,
    decide_eq_false_iff_not] at hstart
  obtain ⟨⟨hupper, hlower⟩, -⟩ := hstart
  have hl : ¬('a' ≤ d ∧ d ≤ 'f') := fun h =>
    hlower.elim (· h.1) (· (Char.le_trans h.2 (by decide)))
  have hu : ¬('A' ≤ d ∧ d ≤ 'F') := fun h =>
    hupper.elim (· h.1) (· (Char.le_trans h.2 (by decide)))
  simp only [Bool.and_eq_true, decide_eq_true_eq, hl, hu, if_false, Option.isSome_none]

theorem commentRest?_takes (h : commentRest? cs = some more) :
    ∃ r, cs = more ++ r ∧ ∀ r', commentRest? (more ++ r') = some more := by
  fun_induction commentRest? cs generalizing more with
  | case1 => cases h
  | case2 rest =>
    cases h
    exact ⟨rest, rfl, fun _ => rfl⟩
  | case3 c cs hend ih =>
    obtain ⟨more, hm, rfl⟩ := Option.map_eq_some_iff.mp h
    obtain ⟨r, rfl, hr⟩ := ih hm
    refine ⟨r, rfl, fun r' => ?_⟩
    rw [List.cons_append, commentRest?, hr r', Option.map_some]
    rintro rest rfl he
    cases more with
    | nil => exact absurd (hr []) (by simp [commentRest?])
    | cons d more =>
      obtain ⟨rfl, -⟩ := List.cons.inj he
      exact hend _ rfl rfl

theorem stringRest?_takes (h : stringRest? cs = some more) :
    ∃ r, cs = more ++ r ∧ ∀ r', stringRest? (more ++ r') = some more := by
  fun_induction stringRest? cs generalizing more with
  | case1 => cases h
  | case2 rest =>
    cases h
    exact ⟨rest, rfl, fun _ => rfl⟩
  | case3 => cases h
  | case4 => cases h
  | case5 c cs ih =>
    obtain ⟨more, hm, rfl⟩ := Option.map_eq_some_iff.mp h
    obtain ⟨r, rfl, hr⟩ := ih hm
    refine ⟨r, rfl, fun r' => ?_⟩
    rw [List.cons_append, List.cons_append, stringRest?, hr r', Option.map_some]
  | case6 c cs hquote hline hlast hslash ih =>
    obtain ⟨more, hm, rfl⟩ := Option.map_eq_some_iff.mp h
    obtain ⟨r, rfl, hr⟩ := ih hm
    have hplain : c ≠ '\\' := by
      intro hc
      cases hr' : more ++ r with
      | nil => exact hlast hc hr'
      | cons d ds => exact hslash d ds hc hr'
    refine ⟨r, rfl, fun r' => ?_⟩
    rw [List.cons_append, stringRest?, hr r', Option.map_some]
    · exact hquote
    · exact hline
    · exact fun hc => absurd hc hplain
    · exact fun _ _ hc => absurd hc hplain

theorem decimal?_takes (h : decimal? cs = some (digits, n)) :
    Takes q decimal? cs digits (digits, n) ∧ digits ≠ [] ∧ ∀ c ∈ digits, isDigit c = true := by
  obtain ⟨r, hcs, hr⟩ := takeWhile_takes (q := q) (fun d hd _ => isDigit_of_isMark hd) cs
  unfold decimal? at h
  split at h
  case h_1 => cases h
  case h_2 hne =>
    obtain ⟨rfl, rfl⟩ := by simpa using h
    have hall : ∀ c ∈ cs.takeWhile isDigit, isDigit c = true := fun c hc =>
      List.mem_takeWhile_imp hc
    refine ⟨⟨r, hcs, fun r' hr' => ?_⟩, hne, hall⟩
    rw [decimal?, hr r' hr']
    split
    · exact absurd ‹_› hne
    · rfl

/-- A text that starts with the mark of a hexadecimal numeral and a digit. -/
def IsHexadecimal (cs : List Char) : Prop :=
  (∃ rest, cs = '$' :: rest) ∨
    ∃ x d rest, cs = '0' :: x :: d :: rest ∧ (x = 'x' ∨ x = 'X') ∧ isHexDigit d = true

theorem magnitude?_of_decimal (h : ¬IsHexadecimal cs) : magnitude? cs = decimal? cs := by
  unfold magnitude?
  split
  case h_1 x rest =>
    split
    case h_1 => rfl
    case h_2 hne =>
      split
      case isTrue hx =>
        cases rest with
        | nil => exact absurd rfl hne
        | cons d rest =>
          cases hd : isHexDigit d with
          | false => exact absurd (by simp [hd]) hne
          | true => exact absurd (.inr ⟨x, d, rest, rfl, hx, hd⟩) h
      case isFalse => rfl
  case h_2 rest => exact absurd (.inl ⟨rest, rfl⟩) h
  case h_3 => rfl

theorem not_isHexadecimal (hne : digits ≠ []) (hall : ∀ c ∈ digits, isDigit c = true)
    (h : ¬IsHexadecimal (digits ++ r)) (hr : MayFollow q r r') :
    ¬IsHexadecimal (digits ++ r') := by
  have hx : ∀ x, x = 'x' ∨ x = 'X' → isNameChar x = true ∧ isDigit x = false := by
    rintro x (rfl | rfl) <;> decide
  obtain _ | ⟨c, ds⟩ := digits
  · exact absurd rfl hne
  obtain ⟨hc, hds⟩ := List.forall_mem_cons.mp hall
  rintro (⟨rest, he⟩ | ⟨x, d, rest, he, hxs, hd⟩)
  · obtain ⟨rfl, -⟩ := List.cons.inj he
    exact absurd hc (by decide)
  obtain ⟨rfl, hrest⟩ := List.cons.inj he
  obtain _ | ⟨c, ds⟩ := ds
  · obtain rfl : r' = x :: d :: rest := hrest
    obtain ⟨ds, rfl⟩ | ⟨e, es, hmark, -, he⟩ := hr
    · exact h (.inr ⟨x, d, rest ++ ds, rfl, hxs, hd⟩)
    · match r, he with
      | [], he =>
        obtain ⟨rfl, -⟩ := List.cons.inj he
        exact absurd (hx x hxs).1 (by simp [show isNameChar x = false from hmark])
      | [_], he =>
        obtain ⟨rfl, htail⟩ := List.cons.inj he
        obtain ⟨rfl, -⟩ := List.cons.inj htail
        exact absurd hd (by simp [isHexDigit_of_isMark hmark])
      | _ :: _ :: r, he =>
        obtain ⟨rfl, htail⟩ := List.cons.inj he
        obtain ⟨rfl, -⟩ := List.cons.inj htail
        exact h (.inr ⟨x, d, r, rfl, hxs, hd⟩)
  · obtain ⟨rfl, -⟩ := List.cons.inj hrest
    exact absurd (hds c List.mem_cons_self) (by simp [(hx c hxs).2])

theorem magnitude?_takes_hex {x : Char} (hx : x = 'x' ∨ x = 'X')
    (hne : cs.takeWhile isHexDigit ≠ []) :
    Takes q magnitude? ('0' :: x :: cs) ('0' :: x :: cs.takeWhile isHexDigit)
      ('0' :: x :: cs.takeWhile isHexDigit, valueOf 16 (cs.takeWhile isHexDigit)) := by
  obtain ⟨r, hcs, hr⟩ :=
    takeWhile_takes (q := q) (fun d hd _ => isHexDigit_of_isMark hd) cs
  refine ⟨r, by rw [List.cons_append, List.cons_append, ← hcs], fun r' hr' => ?_⟩
  simp only [List.cons_append, magnitude?, hr r' hr', hx, if_true]

theorem magnitude?_takes_dollar (hne : cs.takeWhile isHexDigit ≠ []) :
    Takes q magnitude? ('$' :: cs) ('$' :: cs.takeWhile isHexDigit)
      ('$' :: cs.takeWhile isHexDigit, valueOf 16 (cs.takeWhile isHexDigit)) := by
  obtain ⟨r, hcs, hr⟩ :=
    takeWhile_takes (q := q) (fun d hd _ => isHexDigit_of_isMark hd) cs
  refine ⟨r, by rw [List.cons_append, ← hcs], fun r' hr' => ?_⟩
  simp only [List.cons_append, magnitude?, hr r' hr']

theorem magnitude?_takes_decimal (hx : ¬IsHexadecimal cs) (h : decimal? cs = some (digits, n)) :
    Takes q magnitude? cs digits (digits, n) ∧ digits ≠ [] := by
  obtain ⟨⟨r, rfl, hr⟩, hne, hall⟩ := decimal?_takes (q := q) h
  refine ⟨⟨r, rfl, fun r' hr' => ?_⟩, hne⟩
  rw [magnitude?_of_decimal (not_isHexadecimal hne hall hx hr'), hr r' hr']

theorem magnitude?_takes (h : magnitude? cs = some (digits, n)) :
    Takes q magnitude? cs digits (digits, n) ∧ digits ≠ [] := by
  by_cases hx : IsHexadecimal cs
  · obtain ⟨rest, rfl⟩ | ⟨x, d, rest, rfl, hx, hd⟩ := hx
    · cases hds : rest.takeWhile isHexDigit with
      | nil => simp [magnitude?, hds] at h
      | cons d ds =>
        obtain ⟨rfl, rfl⟩ : '$' :: d :: ds = digits ∧ valueOf 16 (d :: ds) = n := by
          simpa [magnitude?, hds] using h
        rw [← hds]
        exact ⟨magnitude?_takes_dollar (by simp [hds]), by simp⟩
    · have hds : (d :: rest).takeWhile isHexDigit = d :: rest.takeWhile isHexDigit := by simp [hd]
      obtain ⟨rfl, rfl⟩ : '0' :: x :: d :: rest.takeWhile isHexDigit = digits ∧
          valueOf 16 (d :: rest.takeWhile isHexDigit) = n := by
        simpa [magnitude?, hds, hx] using h
      rw [← hds]
      exact ⟨magnitude?_takes_hex hx (by simp [hds]), by simp⟩
  · rw [magnitude?_of_decimal hx] at h
    exact magnitude?_takes_decimal hx h

theorem numeral?_takes (h : numeral? cs = some (digits, m)) :
    Takes q numeral? cs digits (digits, m) ∧ digits ≠ [] := by
  unfold numeral? at h
  split at h
  case h_1 rest =>
    obtain ⟨⟨ds, n⟩, hn, h⟩ := Option.map_eq_some_iff.mp h
    cases h
    obtain ⟨⟨r, rfl, hr⟩, -⟩ := magnitude?_takes (q := q) hn
    refine ⟨⟨r, rfl, fun r' hr' => ?_⟩, by simp⟩
    rw [List.cons_append, numeral?, hr r' hr', Option.map_some]
  case h_2 hminus =>
    obtain ⟨⟨ds, n⟩, hn, h⟩ := Option.map_eq_some_iff.mp h
    cases h
    obtain ⟨⟨r, rfl, hr⟩, hne⟩ := magnitude?_takes (q := q) hn
    refine ⟨⟨r, rfl, fun r' hr' => ?_⟩, hne⟩
    rw [numeral?, hr r' hr', Option.map_some]
    obtain _ | ⟨c, ds⟩ := digits
    · exact absurd rfl hne
    · rintro rest he
      obtain ⟨rfl, -⟩ := List.cons.inj he
      exact hminus _ rfl

theorem idNumber?_minus (cs : List Char) :
    idNumber? ('-' :: cs) = (decimal? cs).map fun (digits, n) => ('-' :: digits, -(n : Int)) := by
  rw [idNumber?, decimal?]
  cases cs.takeWhile isDigit <;> rfl

theorem idNumber?_plain (h : ∀ rest, cs ≠ '-' :: rest) :
    idNumber? cs = (decimal? cs).map fun (digits, n) => (digits, (n : Int)) := by
  rw [idNumber?, decimal?]
  · cases cs.takeWhile isDigit <;> rfl
  · exact h

theorem idNumber?_takes (h : idNumber? cs = some (more, m)) :
    Takes q idNumber? cs more (more, m) := by
  by_cases hminus : ∃ rest, cs = '-' :: rest
  · obtain ⟨rest, rfl⟩ := hminus
    rw [idNumber?_minus] at h
    obtain ⟨⟨ds, n⟩, hn, h⟩ := Option.map_eq_some_iff.mp h
    cases h
    obtain ⟨⟨r, rfl, hr⟩, -⟩ := decimal?_takes (q := q) hn
    refine ⟨r, rfl, fun r' hr' => ?_⟩
    rw [List.cons_append, idNumber?_minus, hr r' hr', Option.map_some]
  · rw [idNumber?_plain fun rest he => hminus ⟨rest, he⟩] at h
    obtain ⟨⟨ds, n⟩, hn, h⟩ := Option.map_eq_some_iff.mp h
    cases h
    obtain ⟨⟨r, rfl, hr⟩, hne, -⟩ := decimal?_takes (q := q) hn
    refine ⟨r, rfl, fun r' hr' => ?_⟩
    rw [idNumber?_plain, hr r' hr', Option.map_some]
    obtain _ | ⟨c, ds⟩ := more
    · exact absurd rfl hne
    · rintro rest he
      obtain ⟨rfl, -⟩ := List.cons.inj he
      exact hminus ⟨_, rfl⟩

/-- A character that the piece does not go on with: no blank behind blanks, and only a line end
behind a comment that goes on up to one. -/
def EndsBefore (c : Char) (piece : Piece) (d : Char) : Prop :=
  (isGapChar c = true → isGapChar d = false) ∧ (c = '/' → piece.more.head? = some '/' → d = '\n')

theorem at?_blank (hgap : isGapChar c = true) (cs : List Char) :
    at? c cs = some (gap (cs.takeWhile isGapChar)) := by
  unfold at?
  rw [if_pos hgap]

theorem at?_name (hgap : ¬isGapChar c = true) (hname : isNameStart c = true) (cs : List Char) :
    at? c cs = some (token .identifier (cs.takeWhile isNameChar)) := by
  unfold at?
  rw [if_neg hgap, if_pos hname]

theorem at?_takes_comment (cs : List Char) :
    Takes (· = '\n') (at? '/') ('/' :: cs) ('/' :: cs.takeWhile (· != '\n'))
      (gap ('/' :: cs.takeWhile (· != '\n'))) := by
  obtain ⟨r, hcs, hr⟩ := takeWhile_takes (p := (· != '\n')) (q := (· = '\n'))
    (fun d _ hd => by simp [hd]) cs
  refine ⟨r, by rw [List.cons_append, ← hcs], fun r' hr' => ?_⟩
  change some (gap ('/' :: (cs.takeWhile (· != '\n') ++ r').takeWhile (· != '\n'))) = _
  rw [hr r' hr']

theorem Takes.mono {q' : Char → Prop} {f : List Char → Option α} {a : α}
    (h : Takes q f cs more a) (hs : ∀ d, q' d → q d) : Takes q' f cs more a := by
  obtain ⟨r, hcs, hr⟩ := h
  refine ⟨r, hcs, fun r' hr' => hr r' ?_⟩
  obtain hp | ⟨d, ds, hd, hq, he⟩ := hr'
  · exact .inl hp
  · exact .inr ⟨d, ds, hd, fun h => hs d (hq h), he⟩

theorem at?_takes (h : at? c cs = some piece) :
    Takes (EndsBefore c piece) (at? c) cs piece.more piece := by
  by_cases hgap : isGapChar c = true
  · rw [at?_blank hgap] at h
    cases h
    obtain ⟨r, hcs, hr⟩ := takeWhile_takes (p := isGapChar) (q := (isGapChar · = false))
      (fun d _ hd => hd) cs
    refine Takes.mono ⟨r, hcs, fun r' hr' => ?_⟩ fun d hd => hd.1 hgap
    rw [at?_blank hgap]
    exact congrArg (some <| gap ·) (hr r' hr')
  by_cases hname : isNameStart c = true
  · rw [at?_name hgap hname] at h
    cases h
    obtain ⟨r, hcs, hr⟩ := takeWhile_takes (p := isNameChar) (q := EndsBefore c _)
      (fun d hd _ => hd) cs
    refine ⟨r, hcs, fun r' hr' => ?_⟩
    rw [at?_name hgap hname]
    exact congrArg (some <| token .identifier ·) (hr r' hr')
  unfold at? at h
  rw [if_neg hgap, if_neg hname] at h
  split at h
  case h_9 =>
    -- A slash: a comment of one line, or one up to its end mark.
    split at h
    case h_1 rest =>
      cases h
      exact (at?_takes_comment rest).mono fun d hd => hd.2 rfl rfl
    case h_2 rest =>
      obtain ⟨more, hm, rfl⟩ := Option.map_eq_some_iff.mp h
      obtain ⟨r, rfl, hr⟩ := commentRest?_takes hm
      refine ⟨r, rfl, fun r' _ => ?_⟩
      change (commentRest? (more ++ r')).map (fun more => gap ('*' :: more)) = _
      rw [hr r', Option.map_some]
    case h_3 => cases h
  case h_10 =>
    -- A string literal.
    obtain ⟨more, hm, rfl⟩ := Option.map_eq_some_iff.mp h
    obtain ⟨r, rfl, hr⟩ := stringRest?_takes hm
    refine ⟨r, rfl, fun r' _ => ?_⟩
    change (stringRest? (more ++ r')).map
      (fun more => token (.string (unescape more.dropLast)) more) = _
    rw [hr r', Option.map_some]
  case h_11 =>
    -- The number of a resource.
    obtain ⟨⟨more, n⟩, hm, rfl⟩ := Option.map_eq_some_iff.mp h
    obtain ⟨r, rfl, hr⟩ := idNumber?_takes (q := EndsBefore '#' (token (.resourceId n) more)) hm
    refine ⟨r, rfl, fun r' hr' => ?_⟩
    change (idNumber? (more ++ r')).map (fun x => token (.resourceId x.2) x.1) = _
    rw [hr r' hr', Option.map_some]
  case h_12 =>
    -- Neither name nor mark, so a number, whose first digit is the character itself.
    obtain ⟨⟨digits, n⟩, hm, rfl⟩ := Option.map_eq_some_iff.mp h
    obtain ⟨⟨r, hcs, hr⟩, hne⟩ :=
      numeral?_takes (q := EndsBefore c (token (.integer n) digits.tail)) hm
    obtain _ | ⟨c, ds⟩ := digits
    · exact absurd rfl hne
    obtain ⟨rfl, rfl⟩ := List.cons.inj hcs
    refine ⟨r, rfl, fun r' hr' => ?_⟩
    have hn := hr r' hr'
    rw [List.cons_append] at hn
    change at? _ (ds ++ r') = _
    rw [at?, if_neg hgap, if_neg hname, hn, Option.map_some]
    all_goals assumption
  all_goals
    cases h
    exact ⟨cs, rfl, fun _ _ => rfl⟩

end ResourceScript.Piece

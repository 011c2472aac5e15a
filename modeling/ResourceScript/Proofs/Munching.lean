import Mathlib.Data.List.Chain
import ResourceScript.Proofs.Lexicon
import ResourceScript.Proofs.Places

namespace ResourceScript

namespace Lexicon

/-- A numeral or a resource id of more decimal digits than are read. -/
def IsUnread (text : List Char) : Prop :=
  ∃ front digits, front ∈ [[], ['-'], ['#'], ['#', '-']] ∧ text = front ++ digits ∧
    (∀ d ∈ digits, Piece.isDigit d = true) ∧ Text.decimalLimit < digits.length

/-- Cutting off pieces that maximal munch selects, and that are read, leads to the rest `ds`. -/
inductive Reaches : List Char → List Char → Prop where
  | refl : Reaches cs cs
  | piece : Munch cs taken lexeme → ¬IsUnread taken → Reaches (cs.drop taken.length) ds →
      Reaches cs ds

/-- Cutting off blanks and comments that maximal munch selects leads to the rest `ds`. -/
inductive SkipsTo : List Char → List Char → Prop where
  | refl : SkipsTo cs cs
  | gap : Munch cs taken none → SkipsTo (cs.drop taken.length) ds → SkipsTo cs ds

end Lexicon

def textFrom (source : String) (offset : Nat) : List Char :=
  source.toList.drop offset

/-- The tokens of a script: what stands at their places, and what stands between them. -/
structure Tokenization (source : String) (path : Option String) (tokens : List Token) : Prop where
  places : ∀ token ∈ tokens, token.position.PointsInto source path
  texts : ∀ token ∈ tokens, token.text.toList <+: textFrom source token.position.offset
  munch : ∀ token ∈ tokens, token.lexeme ≠ .endOfInput → ∀ taken lexeme,
    Lexicon.Munch (textFrom source token.position.offset) taken lexeme ↔
      taken = token.text.toList ∧ lexeme = some token.lexeme
  areRead : ∀ token ∈ tokens, ¬Lexicon.IsUnread token.text.toList
  last : ∃ ts token, tokens = ts ++ [token] ∧ token.lexeme = .endOfInput ∧ token.text = "" ∧
    token.position.offset = source.length ∧ ∀ t ∈ ts, t.lexeme ≠ .endOfInput
  increasing : tokens.Pairwise fun t t' => t.position.offset < t'.position.offset
  first : ∀ token ∈ tokens.head?,
    Lexicon.SkipsTo source.toList (textFrom source token.position.offset)
  gaps : tokens.IsChain fun t t' => Lexicon.SkipsTo
    (textFrom source (t.position.offset + t.text.length)) (textFrom source t'.position.offset)

variable {c : Char} {cs ds es taken front digits : List Char} {lexeme : Option Lexeme}
  {piece : Piece}
  {p : Position} {source : String} {path : Option String} {tokens ts : List Token} {e : Failure}

namespace Lexicon

/-- Whether a numeral has more decimal digits than are read. -/
def isLong (cs : List Char) : Bool :=
  !(cs.any fun c => c == '$' || c == 'x' || c == 'X') &&
    Text.decimalLimit < (cs.filter Piece.isDigit).length

theorem not_hexadecimal_of_isDigit (h : Piece.isDigit c = true) :
    (c == '$' || c == 'x' || c == 'X') = false := by
  simp only [Bool.or_eq_false_iff, beq_eq_false_iff_ne]
  refine ⟨⟨?_, ?_⟩, ?_⟩ <;>
  · rintro rfl
    cases h

theorem not_isUnread_nil : ¬IsUnread [] := by
  rintro ⟨front, digits, -, hnil, -, hlimit⟩
  obtain ⟨-, rfl⟩ := List.append_eq_nil_iff.mp hnil.symm
  exact Nat.not_lt_zero _ hlimit

theorem isLong_of_decimal (hfront : front ∈ [[], ['-'], ['#'], ['#', '-']])
    (hdigits : ∀ d ∈ digits, Piece.isDigit d = true) :
    isLong (front ++ digits) = decide (Text.decimalLimit < digits.length) := by
  have hmark : (digits.any fun c => c == '$' || c == 'x' || c == 'X') = false := by
    rw [List.any_eq_false]
    exact fun d hd => by simp [not_hexadecimal_of_isDigit (hdigits d hd)]
  have hfilter : digits.filter Piece.isDigit = digits := List.filter_eq_self.mpr hdigits
  rw [isLong, List.any_append, List.filter_append, hmark, hfilter]
  simp only [List.mem_cons, List.not_mem_nil, or_false] at hfront
  obtain rfl | rfl | rfl | rfl := hfront <;> rfl

theorem isDigit_of_isLong (h : IsMagnitude digits n) (hl : isLong (front ++ digits) = true) :
    ∀ d ∈ digits, Piece.isDigit d = true := by
  have hmark (d : Char) (hd : d ∈ digits) : (d == '$' || d == 'x' || d == 'X') = false := by
    rw [isLong, Bool.and_eq_true, Bool.not_eq_true', List.any_eq_false] at hl
    simpa using hl.1 d (List.mem_append_right front hd)
  cases h with
  | decimal h => exact (Piece.isNumeral_decimal.mp h).2.1
  | dollar => exact absurd (hmark '$' List.mem_cons_self) (by decide)
  | @hexadecimal x cs n hx =>
    have hxmark := hmark x (List.mem_cons_of_mem _ List.mem_cons_self)
    obtain rfl | rfl := hx <;> exact absurd hxmark (by decide)

/-- Integers and ids are numbers behind a mark or a sign, and whether they are read hangs on their
length only. -/
theorem exists_magnitude {l : Lexeme} (h : Spells taken (some l))
    (hl : Piece.isTooLong l cs = true) :
    ∃ front digits n, front ∈ [[], ['-'], ['#'], ['#', '-']] ∧ taken = front ++ digits ∧
      IsMagnitude digits n ∧ isLong cs = true := by
  cases h with
  | integer h =>
    cases h with
    | plain h => exact ⟨[], _, _, by simp, rfl, h, hl⟩
    | minus h => exact ⟨['-'], _, _, by simp, rfl, h, hl⟩
  | resourceId h =>
    cases h with
    | plain h => exact ⟨['#'], _, _, by simp, rfl, .decimal h, hl⟩
    | minus h => exact ⟨['#', '-'], _, _, by simp, rfl, .decimal h, hl⟩
  | mark h =>
    simp only [marks, List.mem_cons, List.not_mem_nil, or_false, Prod.mk.injEq] at h
    obtain ⟨-, rfl⟩ | ⟨-, rfl⟩ | ⟨-, rfl⟩ | ⟨-, rfl⟩ | ⟨-, rfl⟩ | ⟨-, rfl⟩ | ⟨-, rfl⟩ |
      ⟨-, rfl⟩ := h <;> cases hl
  | _ => cases hl

theorem exists_lexeme_of_decimal (hfront : front ∈ [[], ['-'], ['#'], ['#', '-']])
    (h : IsNumeral 10 digits n) :
    ∃ l, Spells (front ++ digits) (some l) ∧ ∀ cs, Piece.isTooLong l cs = isLong cs := by
  simp only [List.mem_cons, List.not_mem_nil, or_false] at hfront
  obtain rfl | rfl | rfl | rfl := hfront
  · exact ⟨.integer n, .integer (.plain (.decimal h)), fun _ => rfl⟩
  · exact ⟨.integer (-n), .integer (.minus (.decimal h)), fun _ => rfl⟩
  · exact ⟨.resourceId n, .resourceId (.plain h), fun _ => rfl⟩
  · exact ⟨.resourceId (-n), .resourceId (.minus h), fun _ => rfl⟩

theorem isUnread_iff (h : Piece.at? c cs = some piece) :
    piece.isUnread c = true ↔ IsUnread (c :: piece.more) := by
  have hmunch := munch_of_at? h
  rw [Piece.isUnread]
  constructor
  · intro hlong
    have hs := hmunch.spells
    cases hl : piece.lexeme with
    | none =>
      rw [hl] at hlong
      cases hlong
    | some l =>
      rw [hl] at hs hlong
      obtain ⟨front, digits, n, hfront, htaken, hn, hlong⟩ := exists_magnitude hs hlong
      rw [htaken] at hlong ⊢
      have hdigits := isDigit_of_isLong hn hlong
      rw [isLong_of_decimal hfront hdigits, decide_eq_true_eq] at hlong
      exact ⟨front, digits, hfront, rfl, hdigits, hlong⟩
  · rintro ⟨front, digits, hfront, htaken, hdigits, hlimit⟩
    have hne : digits ≠ [] := List.ne_nil_of_length_pos (Nat.zero_lt_of_lt hlimit)
    obtain ⟨l, hs, hlong⟩ := exists_lexeme_of_decimal hfront
      (Piece.isNumeral_decimal.mpr ⟨hne, hdigits, rfl⟩)
    rw [← htaken] at hs
    have hl : piece.lexeme = some l := (Munch.unique ⟨hmunch.front, hs, hmunch.longest⟩ hmunch).2
    rw [hl, Option.any_some, hlong, htaken, isLong_of_decimal hfront hdigits]
    exact decide_eq_true hlimit

end Lexicon

theorem textFrom_after (hs : source.toList = front ++ cs) (path : Option String) :
    textFrom source ((Position.start path).after front).offset = cs := by
  rw [textFrom, hs, Position.offset_after_start, List.drop_left]

namespace Scans

theorem tokens_eq (piece : Piece) (c : Char) (p : Position) :
    piece.lexeme = none ∧ piece.tokens c p = [] ∨
      ∃ l, piece.lexeme = some l ∧ piece.tokens c p =
        [⟨l, String.ofList (c :: piece.more), p⟩] := by
  rw [Piece.tokens]
  cases piece.lexeme with
  | none => exact .inl ⟨rfl, rfl⟩
  | some l => exact .inr ⟨l, rfl, rfl⟩

theorem offsets (h : Scans [] p cs ts) :
    (∀ t ∈ ts ++ [Token.endOfInput (p.after cs)], p.offset ≤ t.position.offset) ∧
      (ts ++ [Token.endOfInput (p.after cs)]).Pairwise
        fun t t' => t.position.offset < t'.position.offset := by
  induction h with
  | nil =>
    refine ⟨?_, List.pairwise_singleton _ _⟩
    rintro t ht
    rw [List.mem_singleton.mp ht]
    exact Nat.le_refl _
  | @piece c cs p ts piece hp _ _ ih =>
    rw [← List.cons_append, Position.after_append, List.append_assoc]
    obtain ⟨hle, hpairs⟩ := ih
    rw [Position.offset_after, List.length_cons] at hle
    obtain ⟨-, htokens⟩ | ⟨l, -, htokens⟩ := tokens_eq piece c p
    · rw [htokens, List.nil_append]
      exact ⟨fun t ht => Nat.le_of_add_right_le (hle t ht), hpairs⟩
    · rw [htokens, List.singleton_append]
      refine ⟨List.forall_mem_cons.mpr
        ⟨Nat.le_refl _, fun t ht => Nat.le_of_add_right_le (hle t ht)⟩,
        List.pairwise_cons.mpr ⟨fun t ht => ?_, hpairs⟩⟩
      have hlt := hle t ht
      change p.offset < t.position.offset
      omega

section

variable (hp : p = (Position.start path).after front)

include hp

theorem after_piece (more : List Char) :
    p.after (c :: more) = (Position.start path).after (front ++ c :: more) := by
  rw [hp, Position.after_append]

theorem textFrom_eq (hs : source.toList = front ++ cs) : textFrom source p.offset = cs := by
  rw [hp]
  exact textFrom_after hs path

theorem gaps (h : Scans [] p cs ts) (hs : source.toList = front ++ cs) :
    (∀ t ∈ (ts ++ [Token.endOfInput (p.after cs)]).head?,
      Lexicon.SkipsTo cs (textFrom source t.position.offset)) ∧
    (ts ++ [Token.endOfInput (p.after cs)]).IsChain fun t t' => Lexicon.SkipsTo
      (textFrom source (t.position.offset + t.text.length))
        (textFrom source t'.position.offset) := by
  induction h generalizing front with
  | @nil p =>
    refine ⟨?_, .singleton _⟩
    rintro t ⟨⟩
    rw [Position.after_nil]
    change Lexicon.SkipsTo [] (textFrom source p.offset)
    rw [textFrom_eq hp hs]
    exact .refl
  | @piece c cs p ts piece hat _ _ ih =>
    have hs' : source.toList = (front ++ c :: piece.more) ++ cs := by
      rw [hs, List.append_assoc, List.cons_append]
    obtain ⟨hhead, hchain⟩ := ih (after_piece hp piece.more) hs'
    have hmunch := Lexicon.munch_of_at? hat
    rw [← List.cons_append, Position.after_append, List.append_assoc]
    rw [List.append_nil] at hmunch
    obtain ⟨hl, htokens⟩ | ⟨l, -, htokens⟩ := tokens_eq piece c p
    · rw [htokens, List.nil_append]
      rw [hl] at hmunch
      refine ⟨fun t ht => .gap hmunch ?_, hchain⟩
      rw [List.drop_left]
      exact hhead t ht
    · rw [htokens, List.singleton_append]
      refine ⟨?_, List.isChain_cons.mpr ⟨fun t ht => ?_, hchain⟩⟩
      · rintro t ⟨⟩
        change Lexicon.SkipsTo _ (textFrom source p.offset)
        rw [textFrom_eq hp hs]
        exact .refl
      · have hrest :
            textFrom source (p.offset + (String.ofList (c :: piece.more)).length) = cs := by
          rw [String.length_ofList, ← Position.offset_after]
          exact textFrom_eq (after_piece hp piece.more) hs'
        change Lexicon.SkipsTo (textFrom source (p.offset + _)) _
        rw [hrest]
        exact hhead t ht

theorem munch (h : Scans [] p cs ts) (hs : source.toList = front ++ cs) (ht : token ∈ ts) :
    Lexicon.Munch (textFrom source token.position.offset) token.text.toList (some token.lexeme) ∧
      ¬Lexicon.IsUnread token.text.toList := by
  induction h generalizing front with
  | nil => cases ht
  | @piece c cs p ts piece hat hread _ ih =>
    rcases List.mem_append.mp ht with ht | ht
    · obtain ⟨l, hl, rfl⟩ := Piece.mem_tokens.mp ht
      have hmunch := Lexicon.munch_of_at? hat
      rw [List.append_nil, hl] at hmunch
      simp only [textFrom_eq hp hs, String.toList_ofList]
      refine ⟨hmunch, fun hunread => ?_⟩
      rw [(Lexicon.isUnread_iff hat).mpr hunread] at hread
      cases hread
    · refine ih (after_piece hp piece.more) ?_ ht
      rw [hs, List.append_assoc, List.cons_append]

end

end Scans

theorem tokenization_of_tokenize (h : tokenize source path = .ok tokens) :
    Tokenization source path tokens := by
  obtain ⟨ts, hts, rfl⟩ := scans_of_tokenizeFrom h
  have hp : Position.start path = (Position.start path).after [] := rfl
  have hs : source.toList = [] ++ source.toList := rfl
  have hend : ((Position.start path).after source.toList).offset = source.length := by
    rw [Position.offset_after_start, String.length_toList]
  have hmem (token : Token)
      (ht : token ∈ ts ++ [Token.endOfInput ((Position.start path).after source.toList)]) :
      token ∈ ts ∨ token = Token.endOfInput ((Position.start path).after source.toList) :=
    (List.mem_append.mp ht).imp id List.mem_singleton.mp
  constructor
  case places =>
    intro token ht
    obtain ⟨cs, ds, hsource, hplace⟩ := exists_place_of_tokenize h ht
    rw [hplace]
    exact Position.pointsInto_after hsource
  case texts =>
    intro token ht
    obtain ht | rfl := hmem token ht
    · exact (hts.munch hp hs ht).1.front
    · exact List.nil_prefix
  case munch =>
    intro token ht hl taken lexeme
    obtain ht | rfl := hmem token ht
    · obtain ⟨hmunch, -⟩ := hts.munch hp hs ht
      constructor
      · exact hmunch.unique
      · rintro ⟨rfl, rfl⟩
        exact hmunch
    · exact absurd rfl hl
  case areRead =>
    intro token ht
    obtain ht | rfl := hmem token ht
    · exact (hts.munch hp hs ht).2
    · exact Lexicon.not_isUnread_nil
  case last =>
    refine ⟨ts, _, rfl, rfl, rfl, hend, fun t ht hl => ?_⟩
    exact hts.kind_ne_endOfInput ht (by rw [Token.kind, hl]; rfl)
  case increasing => exact hts.offsets.2
  case first => exact (hts.gaps hp hs).1
  case gaps => exact (hts.gaps hp hs).2

theorem Lexicon.Reaches.unique (h : Reaches cs ds) (hd : Stuck ds) (h' : Reaches cs es)
    (he : Stuck es) : es = ds := by
  induction h with
  | refl =>
    cases h' with
    | refl => rfl
    | piece hm => exact absurd hd hm.not_stuck
  | piece hm _ _ ih =>
    cases h' with
    | refl => exact absurd he hm.not_stuck
    | piece hm' _ h' =>
      rw [(hm.unique hm').1] at h'
      exact ih hd h'

def stuckFailure (c : Char) (p : Position) : Failure :=
  (if c = '"' then Problem.unterminatedString else .unexpectedCharacter c).at p

theorem tokenizeFrom_eq_error (h : tokenizeFrom p cs = .error e) :
    ∃ ds es, cs = ds ++ es ∧ Lexicon.Reaches cs es ∧
      ((∃ c rest, es = c :: rest ∧ Lexicon.Stuck es ∧ e = stuckFailure c (p.after ds)) ∨
        ∃ taken lexeme, Lexicon.Munch es taken lexeme ∧ Lexicon.IsUnread taken ∧
          e = .fault .noSuchValue) := by
  induction p, cs using Piece.induction with
  | nil p =>
    rw [tokenizeFrom] at h
    cases h
  | none p c cs hp =>
    rw [tokenizeFrom_none hp] at h
    cases h
    exact ⟨[], c :: cs, rfl, .refl, .inl ⟨c, cs, rfl, Lexicon.stuck_of_at? hp, rfl⟩⟩
  | unread p c piece cs hp hr =>
    rw [tokenizeFrom_unread hp hr] at h
    cases h
    exact ⟨[], _, rfl, .refl,
      .inr ⟨_, _, Lexicon.munch_of_at? hp, (Lexicon.isUnread_iff hp).mp hr, rfl⟩⟩
  | piece p c piece cs hp hr ih =>
    rw [tokenizeFrom_piece hp hr, Except.map_eq_error] at h
    obtain ⟨ds, es, rfl, hreach, hcause⟩ := ih h
    have hread : ¬Lexicon.IsUnread (c :: piece.more) := by
      rw [← Lexicon.isUnread_iff hp, hr]
      exact Bool.false_ne_true
    refine ⟨c :: piece.more ++ ds, es, by simp, .piece (Lexicon.munch_of_at? hp) hread ?_, ?_⟩
    · rwa [← List.cons_append, List.drop_left]
    · rwa [Position.after_append]

theorem stuckFailure_eq (c : Char) (p : Position) : ∃ cause : Problem,
    stuckFailure c p = cause.at p ∧ cause.code = "E_LEX" ∧
      (cause.message = text "Unterminated string literal" ↔ c = '"') := by
  rw [stuckFailure]
  split
  case isTrue hc => exact ⟨_, rfl, rfl, fun _ => hc, fun _ => rfl⟩
  case isFalse hc =>
    refine ⟨_, rfl, rfl, fun hmessage => ?_, fun h => absurd h hc⟩
    have hfront := congrArg (List.take 3) hmessage
    rw [Problem.message, List.take_append_of_le_length (by decide +kernel)] at hfront
    exact absurd hfront (by decide +kernel)

/-- A text is cut into the pieces that maximal munch selects, one after the other. The scanner gives
the tokens among them with their places; or it blames the place where there is no piece, with a text
of its own for a string literal that does not end; or it stops at a numeral of too many digits. -/
theorem tokenize_munches (source : String) (path : Option String) :
    (∃ tokens, tokenize source path = .ok tokens ∧ Tokenization source path tokens) ∨
    (∃ cause p c cs, tokenize source path = .error (Problem.at cause p) ∧
      p.PointsInto source path ∧ textFrom source p.offset = c :: cs ∧
      Lexicon.Reaches source.toList (c :: cs) ∧ Lexicon.Stuck (c :: cs) ∧
      (∀ ds, Lexicon.Reaches source.toList ds → Lexicon.Stuck ds → ds = c :: cs) ∧
      cause.code = "E_LEX" ∧ (cause.message = text "Unterminated string literal" ↔ c = '"')) ∨
    (∃ ds taken lexeme, tokenize source path = .error (.fault .noSuchValue) ∧
      Lexicon.Reaches source.toList ds ∧ Lexicon.Munch ds taken lexeme ∧
        Lexicon.IsUnread taken) := by
  cases h : tokenize source path with
  | ok tokens => exact .inl ⟨tokens, rfl, tokenization_of_tokenize h⟩
  | error e =>
    right
    obtain ⟨ds, es, hs, hreach, ⟨c, rest, rfl, hstuck, rfl⟩ | ⟨taken, lexeme, hm, hlong, rfl⟩⟩ :=
      tokenizeFrom_eq_error h
    · obtain ⟨cause, hcause, hcode, hmessage⟩ := stuckFailure_eq c ((Position.start path).after ds)
      refine .inl ⟨cause, (Position.start path).after ds, c, rest, congrArg _ hcause,
        Position.pointsInto_after hs, textFrom_after hs path, hreach, hstuck, fun ds' hr' hs' => ?_,
        hcode, hmessage⟩
      exact hreach.unique hstuck hr' hs'
    · exact .inr ⟨es, taken, lexeme, rfl, hreach, hm, hlong⟩

theorem tokenize_of_isUnread (hs : source.toList = cs) (hm : Lexicon.Munch cs taken lexeme)
    (hlong : Lexicon.IsUnread taken) : tokenize source path = .error (.fault .noSuchValue) := by
  obtain ⟨c, more, r, rfl, rfl, hp⟩ := hm.at?_eq
  rw [tokenize, hs]
  exact tokenizeFrom_unread hp ((Lexicon.isUnread_iff hp).mpr hlong)

theorem tokenize_replicate_zero (h : Text.decimalLimit < n) (path : Option String) :
    tokenize (String.ofList (List.replicate n '0')) path = .error (.fault .noSuchValue) := by
  have hdigits : ∀ d ∈ List.replicate n '0', Piece.isDigit d = true := by
    intro d hd
    rw [List.eq_of_mem_replicate hd]
    rfl
  have hlong : Text.decimalLimit < (List.replicate n '0').length := by
    rwa [List.length_replicate]
  have hne : List.replicate n '0' ≠ [] := List.ne_nil_of_length_pos (Nat.zero_lt_of_lt hlong)
  have hnumeral : IsNumeral 10 (List.replicate n '0') _ :=
    Piece.isNumeral_decimal.mpr ⟨hne, hdigits, rfl⟩
  have hmunch : Lexicon.Munch (List.replicate n '0') (List.replicate n '0') _ :=
    ⟨List.prefix_refl _, .integer (.plain (.decimal hnumeral)), fun _ _ h _ => h.length_le⟩
  exact tokenize_of_isUnread String.toList_ofList hmunch ⟨[], _, by simp, rfl, hdigits, hlong⟩

theorem tokenize_long_zero :
    let source := String.ofList (List.replicate 4301 '0')
    tokenize source = .error (.fault .noSuchValue) ∧ (¬∃ tokens, tokenize source = .ok tokens) ∧
      ¬∃ cause p, tokenize source = .error (Problem.at cause p) := by
  intro source
  have h : tokenize source = .error (.fault .noSuchValue) :=
    tokenize_replicate_zero (by decide) none
  refine ⟨h, ?_, ?_⟩
  · rintro ⟨tokens, ht⟩
    cases h.symm.trans ht
  · rintro ⟨cause, p, he⟩
    cases h.symm.trans he

end ResourceScript

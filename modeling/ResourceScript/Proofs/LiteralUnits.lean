import ResourceScript.Proofs.Lexing
import ResourceScript.Proofs.Scans

namespace ResourceScript

/-- A unit of the body of a string literal: a byte in hexadecimal, a backslash with the character
that it takes along, or a plain character. -/
inductive LiteralUnit where
  | byte (b : UInt8)
  | pair (c : Char)
  | plain (c : Char)
  deriving DecidableEq, Repr

namespace LiteralUnit

/-- The characters behind the backslash that spell a byte. -/
inductive SpellsByte : List Char → UInt8 → List Char → Prop where
  | mk {b : UInt8} : Text.hexValue? high = some m → Text.hexValue? low = some n →
      b.toNat = 16 * m + n → SpellsByte ('x' :: high :: low :: cs) b cs

/-- The units that a body is read as, from left to right. What can be read as a byte is no pair. -/
inductive Reads : List Char → List LiteralUnit → Prop where
  | nil : Reads [] []
  | byte : SpellsByte cs b ds → Reads ds us → Reads ('\\' :: cs) (.byte b :: us)
  | pair : (∀ b ds, ¬SpellsByte (c :: cs) b ds) → Reads cs us →
      Reads ('\\' :: c :: cs) (.pair c :: us)
  | plain : c ≠ '\\' → c ≠ '"' → c ≠ '\n' → Reads cs us → Reads (c :: cs) (.plain c :: us)

/-- The characters that stand for others behind a backslash. -/
def escapes : List (Char × Char) :=
  [('n', '\n'), ('t', '\t'), ('r', '\r'), ('0', '\x00'), ('\\', '\\'), ('"', '"')]

/-- The text of a unit. A backslash in front of a line end stays. -/
def text : LiteralUnit → Text
  | byte b => [StringUnit.glyphOfByte b]
  | pair c => if c = '\n' then [.char '\\', .char '\n'] else [.char ((escapes.lookup c).getD c)]
  | plain c => [.char c]

/-- The bytes of a unit, if the encoding has its character. -/
def bytes? (e : TextEncoding) : LiteralUnit → Option Bytes
  | byte b => some [b]
  | pair c => if c = '\n' then some [0x5C, 0x0A] else e.encodeChar? ((escapes.lookup c).getD c)
  | plain c => e.encodeChar? c

variable {cs ds body : List Char} {b b' : UInt8} {us vs units : List LiteralUnit} {c : Char}

theorem SpellsByte.unique (h : SpellsByte cs b ds) (h' : SpellsByte cs b' ds') :
    b' = b ∧ ds' = ds := by
  cases h with
  | mk hm hn hb =>
    cases h' with
    | mk hm' hn' hb' =>
      rw [hm] at hm'
      rw [hn] at hn'
      cases hm'
      cases hn'
      exact ⟨UInt8.toNat_inj.mp (hb'.trans hb.symm), rfl⟩

theorem Reads.unique (h : Reads body us) (h' : Reads body vs) : vs = us := by
  induction h generalizing vs with
  | nil =>
    cases h'
    rfl
  | byte hb _ ih =>
    cases h' with
    | byte hb' h' =>
      obtain ⟨rfl, rfl⟩ := hb.unique hb'
      rw [ih h']
    | pair hno => exact absurd hb (hno _ _)
    | plain hc => exact absurd rfl hc
  | pair hno _ ih =>
    cases h' with
    | byte hb => exact absurd hb (hno _ _)
    | pair _ h' => rw [ih h']
    | plain hc => exact absurd rfl hc
  | plain hc _ _ _ ih =>
    cases h' with
    | byte => exact absurd rfl hc
    | pair => exact absurd rfl hc
    | plain _ _ _ h' => rw [ih h']

theorem ofBody_byte (h : SpellsByte cs b ds) :
    StringUnit.ofBody ('\\' :: cs) = .byte b :: StringUnit.ofBody ds := by
  cases h with
  | @mk high m low n cs b hm hn hb =>
    have hv : StringUnit.hexByte? high low = some b := by
      rw [StringUnit.hexByte?, hm, hn]
      have hval : UInt8.ofNat (m * 16 + n) = b := by
        rw [← UInt8.ofNat_toNat (x := b), hb, Nat.mul_comm]
      exact congrArg some hval
    rw [StringUnit.ofBody, hv]

theorem hexByte?_eq_none {high low : Char}
    (h : ∀ b, ¬SpellsByte ('x' :: high :: low :: cs) b cs) :
    StringUnit.hexByte? high low = none := by
  rw [StringUnit.hexByte?]
  cases hm : Text.hexValue? high with
  | none => rfl
  | some m =>
    cases hn : Text.hexValue? low with
    | none => rfl
    | some n =>
      have hm' := Piece.hexValue?_lt hm
      have hn' := Piece.hexValue?_lt hn
      have hb : (UInt8.ofNat (16 * m + n)).toNat = 16 * m + n :=
        UInt8.toNat_ofNat_of_lt' (by change 16 * m + n < 256; omega)
      exact absurd (.mk hm hn hb) (h _)

theorem ofBody_pair (h : ∀ b ds, ¬SpellsByte (c :: cs) b ds) :
    StringUnit.ofBody ('\\' :: c :: cs) =
      if c = '\n' then .plain '\\' :: StringUnit.ofBody (c :: cs)
      else .escaped c :: StringUnit.ofBody cs := by
  by_cases hx : ∃ high low ds, c = 'x' ∧ cs = high :: low :: ds
  · obtain ⟨high, low, ds, rfl, rfl⟩ := hx
    rw [StringUnit.ofBody, hexByte?_eq_none (h · ds)]
    rfl
  · rw [StringUnit.ofBody]
    exact fun high low ds hc hcs => hx ⟨high, low, ds, hc, hcs⟩

theorem ofBody_plain (hc : c ≠ '\\') :
    StringUnit.ofBody (c :: cs) = .plain c :: StringUnit.ofBody cs := by
  rw [StringUnit.ofBody]
  · exact fun _ _ _ he => absurd he hc
  · exact fun _ _ he => absurd he hc

theorem escapedChar_eq (c : Char) : StringUnit.escapedChar c = (escapes.lookup c).getD c := by
  unfold StringUnit.escapedChar
  split
  case h_5 hn ht hr h0 =>
    by_cases hslash : c = '\\'
    · subst hslash
      rfl
    by_cases hquote : c = '"'
    · subst hquote
      rfl
    have hnone : escapes.lookup c = none := by
      rw [List.lookup_eq_none_iff]
      simpa [escapes] using ⟨hn, ht, hr, h0, hslash, hquote⟩
    rw [hnone]
    rfl
  all_goals rfl

theorem Reads.unescape_eq (h : Reads body units) : unescape body = units.flatMap text := by
  induction h with
  | nil => rw [unescape, StringUnit.ofBody]; rfl
  | byte hb _ ih =>
    rw [unescape, ofBody_byte hb, List.map_cons, ← unescape, ih]
    rfl
  | @pair c cs us hno _ ih =>
    rw [unescape, ofBody_pair hno]
    by_cases hc : c = '\n'
    · subst hc
      rw [if_pos rfl, ofBody_plain (by decide), List.map_cons, List.map_cons, ← unescape, ih]
      rfl
    · rw [if_neg hc, List.map_cons, ← unescape, ih, List.flatMap_cons, text, if_neg hc,
        ← escapedChar_eq]
      rfl
  | plain hc _ _ _ ih =>
    rw [unescape, ofBody_plain hc, List.map_cons, ← unescape, ih]
    rfl

theorem stringRest?_plain (hslash : c ≠ '\\') (hquote : c ≠ '"') (hline : c ≠ '\n')
    (cs : List Char) :
    Piece.stringRest? (c :: cs) = (Piece.stringRest? cs).map (c :: ·) := by
  rw [Piece.stringRest?]
  · exact fun he => hquote he
  · exact fun he => hline he
  · exact fun he _ => hslash he
  · exact fun _ _ he => absurd he hslash

theorem stringRest?_digit (h : Text.hexValue? c = some m) (cs : List Char) :
    Piece.stringRest? (c :: cs) = (Piece.stringRest? cs).map (c :: ·) := by
  apply stringRest?_plain <;>
  · rintro rfl
    cases h

theorem SpellsByte.stringRest?_eq (h : SpellsByte cs b ds) :
    ∃ digits, cs = digits ++ ds ∧ ∀ ds', SpellsByte (digits ++ ds') b ds' ∧
      Piece.stringRest? ('\\' :: (digits ++ ds')) =
        (Piece.stringRest? ds').map ('\\' :: digits ++ ·) := by
  cases h with
  | @mk high m low n cs b hm hn hb =>
    refine ⟨['x', high, low], rfl, fun ds' => ⟨.mk hm hn hb, ?_⟩⟩
    simp only [List.cons_append, List.nil_append, Piece.stringRest?, stringRest?_digit hm,
      stringRest?_digit hn, Option.map_map]
    rfl

theorem SpellsByte.append (h : SpellsByte cs b ds) (r : List Char) :
    SpellsByte (cs ++ r) b (ds ++ r) := by
  cases h with
  | mk hm hn hb => exact .mk hm hn hb

theorem Reads.stringRest?_eq (h : Reads body units) (r : List Char) :
    Piece.stringRest? (body ++ '"' :: r) = some (body ++ ['"']) := by
  induction h with
  | nil => rfl
  | byte hb _ ih =>
    obtain ⟨digits, rfl, hdigits⟩ := hb.stringRest?_eq
    rw [List.cons_append, List.append_assoc, (hdigits _).2, ih, Option.map_some]
    simp
  | pair _ _ ih =>
    rw [List.cons_append, List.cons_append, Piece.stringRest?, ih, Option.map_some]
    rfl
  | plain hslash hquote hline _ ih =>
    rw [List.cons_append, stringRest?_plain hslash hquote hline, ih, Option.map_some]
    rfl

theorem exists_reads {more : List Char} (h : Piece.stringRest? cs = some more) :
    ∃ body units, more = body ++ ['"'] ∧ Reads body units := by
  induction hlen : cs.length using Nat.strong_induction_on generalizing cs more with
  | _ n ih =>
    obtain _ | ⟨c, cs⟩ := cs
    · cases h
    subst hlen
    by_cases hquote : c = '"'
    · subst hquote
      cases h
      exact ⟨[], [], rfl, .nil⟩
    by_cases hslash : c = '\\'
    · subst hslash
      obtain _ | ⟨c, cs⟩ := cs
      · cases h
      by_cases hbyte : ∃ b ds, SpellsByte (c :: cs) b ds
      · obtain ⟨b, ds, hb⟩ := hbyte
        obtain ⟨digits, hcs, hdigits⟩ := hb.stringRest?_eq
        rw [hcs, (hdigits ds).2] at h
        obtain ⟨more, hm, rfl⟩ := Option.map_eq_some_iff.mp h
        have hlt : ds.length < ('\\' :: c :: cs).length := by
          rw [List.length_cons, hcs, List.length_append]
          omega
        obtain ⟨body, units, rfl, hu⟩ := ih ds.length hlt hm rfl
        exact ⟨'\\' :: digits ++ body, .byte b :: units, by simp, .byte (hdigits body).1 hu⟩
      · rw [Piece.stringRest?] at h
        obtain ⟨more, hm, rfl⟩ := Option.map_eq_some_iff.mp h
        obtain ⟨r, hcs, -⟩ := Piece.stringRest?_takes hm
        obtain ⟨body, units, rfl, hu⟩ :=
          ih cs.length (by simp only [List.length_cons]; omega) hm rfl
        refine ⟨'\\' :: c :: body, .pair c :: units, rfl, .pair (fun b ds hb => hbyte ?_) hu⟩
        rw [hcs, List.append_assoc, ← List.cons_append]
        exact ⟨b, _, hb.append _⟩
    · by_cases hline : c = '\n'
      · subst hline
        cases h
      rw [stringRest?_plain hslash hquote hline] at h
      obtain ⟨more, hm, rfl⟩ := Option.map_eq_some_iff.mp h
      obtain ⟨body, units, rfl, hu⟩ := ih cs.length (Nat.lt_succ_self _) hm rfl
      exact ⟨c :: body, .plain c :: units, rfl, .plain hslash hquote hline hu⟩

end LiteralUnit

end ResourceScript

import ResourceScript.Proofs.Munching
import ResourceScript.Proofs.Readers
import ResourceScript.Text.Hex

namespace ResourceScript

namespace LiteralUnit

theorem encodeGlyph?_glyphOfByte (e : TextEncoding) (b : UInt8) :
    e.encodeGlyph? (StringUnit.glyphOfByte b) = some [b] := by
  rw [StringUnit.glyphOfByte]
  split
  case isFalse => rfl
  case isTrue hb =>
    have hlt : b.toNat < 0x80 := UInt8.lt_iff_toNat_lt.mp hb
    have hchar : (Char.ofNat b.toNat).toNat = b.toNat := by
      have hvalid : b.toNat.isValidChar := .inl (by omega)
      rw [Char.ofNat, dif_pos hvalid]
      rfl
    have hbyte : UInt8.ofNat b.toNat = b := UInt8.ofNat_toNat
    cases e with
    | utf8 =>
      have hval : (Char.ofNat b.toNat).val.toNat = b.toNat := hchar
      have hsize : (Char.ofNat b.toNat).utf8Size = 1 := by
        rw [Char.utf8Size_eq_one_iff, UInt32.le_iff_toNat_le, hval]
        exact Nat.le_of_lt_succ hlt
      have hb : (Char.ofNat b.toNat).val.toUInt8 = b := by
        rw [← UInt8.toNat_inj, UInt32.toNat_toUInt8, hval]
        omega
      exact congrArg some ((String.utf8EncodeChar_eq_singleton hsize).trans (by rw [hb]))
    | _ =>
      have hlt' : b.toNat < 0x100 := by omega
      simp only [TextEncoding.encodeGlyph?, TextEncoding.encodeChar?, hchar, hlt, hlt', if_true,
        hbyte]

theorem encode?_singleton (e : TextEncoding) (g : Glyph) : e.encode? [g] = e.encodeGlyph? g := by
  rw [TextEncoding.encode?]
  cases e.encodeGlyph? g with
  | none => rfl
  | some b => exact congrArg some (List.append_nil b)

theorem encode?_append (e : TextEncoding) (t u : Text) :
    e.encode? (t ++ u) = (e.encode? t).bind fun b => (e.encode? u).map (b ++ ·) := by
  induction t with
  | nil =>
    cases hu : e.encode? u <;> simp [TextEncoding.encode?, hu]
  | cons g t ih =>
    rw [List.cons_append, TextEncoding.encode?, TextEncoding.encode?, ih]
    cases e.encodeGlyph? g with
    | none => rfl
    | some b => cases e.encode? t <;> cases e.encode? u <;> simp

theorem encode?_text (e : TextEncoding) (u : LiteralUnit) : e.encode? u.text = u.bytes? e := by
  cases u with
  | byte b =>
    rw [text, encode?_singleton, encodeGlyph?_glyphOfByte, bytes?]
  | pair c =>
    rw [text, bytes?]
    split
    · cases e <;> decide
    · exact encode?_singleton e _
  | plain c => exact encode?_singleton e _

theorem encode?_units_eq_some {b : Bytes} (e : TextEncoding) (units : List LiteralUnit) :
    e.encode? (units.flatMap text) = some b ↔
      ∃ bs, List.Forall₂ (fun u b => bytes? e u = some b) units bs ∧ b = bs.flatten := by
  induction units generalizing b with
  | nil =>
    constructor
    · intro h
      exact ⟨[], .nil, (Option.some.inj h).symm⟩
    · rintro ⟨bs, hbs, rfl⟩
      cases hbs
      rfl
  | cons u us ih =>
    rw [List.flatMap_cons, encode?_append, encode?_text]
    constructor
    · intro h
      obtain ⟨b₁, hu, h⟩ := Option.bind_eq_some_iff.mp h
      obtain ⟨b₂, hus, rfl⟩ := Option.map_eq_some_iff.mp h
      obtain ⟨bs, hbs, rfl⟩ := ih.mp hus
      exact ⟨b₁ :: bs, .cons hu hbs, rfl⟩
    · rintro ⟨bs, hbs, rfl⟩
      cases hbs with
      | cons hu hbs =>
        rw [hu, Option.bind_some, ih.mpr ⟨_, hbs, rfl⟩]
        rfl

theorem encode?_units_eq_none (e : TextEncoding) (units : List LiteralUnit) :
    e.encode? (units.flatMap text) = none ↔ ∃ u ∈ units, bytes? e u = none := by
  induction units with
  | nil => simp [TextEncoding.encode?]
  | cons u us ih =>
    rw [List.flatMap_cons, encode?_append, encode?_text, List.exists_mem_cons_iff, ← ih]
    cases bytes? e u with
    | none => simp
    | some b => cases e.encode? (us.flatMap text) <;> simp

end LiteralUnit
variable {source : String} {path : Option String} {tokens : List Token} {token : Token}
  {value : Text} {cs body : List Char} {units : List LiteralUnit}

theorem Lexicon.Spells.exists_body (h : Spells cs (some (.string value))) :
    ∃ body units, cs = '"' :: (body ++ ['"']) ∧ LiteralUnit.Reads body units ∧
      value = units.flatMap LiteralUnit.text := by
  cases h with
  | string hu => exact ⟨_, _, rfl, hu, rfl⟩
  | mark hmark => simp [marks] at hmark

theorem exists_body_of_tokenize (h : tokenize source path = .ok tokens) (ht : token ∈ tokens)
    (hl : token.lexeme = .string value) :
    ∃ body units, token.text = String.ofList ('"' :: (body ++ ['"'])) ∧
      LiteralUnit.Reads body units ∧ value = units.flatMap LiteralUnit.text := by
  have hne : token.lexeme ≠ .endOfInput := by
    rw [hl]
    exact Lexeme.noConfusion
  have hmunch := ((tokenization_of_tokenize h).munch token ht hne _ _).mpr ⟨rfl, rfl⟩
  rw [hl] at hmunch
  obtain ⟨body, units, htext, hu, hvalue⟩ := hmunch.spells.exists_body
  exact ⟨body, units, by rw [← htext, String.ofList_toList], hu, hvalue⟩

theorem tokenize_literal (h : LiteralUnit.Reads body units) (path : Option String) :
    tokenize (String.ofList ('"' :: (body ++ ['"']))) path =
      .ok [⟨.string (units.flatMap LiteralUnit.text), String.ofList ('"' :: (body ++ ['"'])),
        .start path⟩,
        Token.endOfInput ((Position.start path).after ('"' :: (body ++ ['"'])))] := by
  rw [tokenize, String.toList_ofList]
  exact (Lexicon.Spells.string h).tokenizeFrom_eq rfl (.start path)

def spelled (b : Bytes) : List Char :=
  b.flatMap fun x => ['\\', 'x', Nat.digitChar (x.toNat / 16), Nat.digitChar (x.toNat % 16)]

theorem hexValue?_digitChar (h : n < 16) : Text.hexValue? (Nat.digitChar n) = some n := by
  have hall : ∀ n : Fin 16, Text.hexValue? (Nat.digitChar n) = some n.val := by decide
  exact hall ⟨n, h⟩

theorem reads_spelled (b : Bytes) : LiteralUnit.Reads (spelled b) (b.map .byte) := by
  induction b with
  | nil => exact .nil
  | cons x b ih =>
    have hx : x.toNat < 256 := x.toNat_lt
    refine .byte (.mk (hexValue?_digitChar (by omega)) (hexValue?_digitChar (by omega)) ?_) ih
    omega

theorem forall₂_bytes (e : TextEncoding) (b : Bytes) :
    List.Forall₂ (fun u b => LiteralUnit.bytes? e u = some b) (b.map .byte) (b.map ([·])) := by
  induction b with
  | nil => exact .nil
  | cons x b ih => exact .cons rfl ih

namespace FieldScope

variable {scope : FieldScope} {e : TextEncoding} {value : Text} {token : Token}

theorem ofName?_of_usual (he : TextEncoding.ofName? scope.encoding = some e) :
    Encoder.ofName? scope.encoders scope.encoding = some e.encoder := by
  rw [Encoder.ofName?, he, Option.map_some, Option.some_or]

theorem encodeText_eq_ok_iff (he : TextEncoding.ofName? scope.encoding = some e) :
    scope.encodeText value token = .ok b ↔ e.encode? value = some b := by
  simp only [encodeText, ofName?_of_usual he, TextEncoding.encoder]
  cases e.encode? value <;> simp

theorem encodeText_eq_error_iff (he : TextEncoding.ofName? scope.encoding = some e) :
    scope.encodeText value token =
        .error ((Problem.unencodable scope.field scope.encoding e.reason).at token.position) ↔
      e.encode? value = none := by
  simp only [encodeText, ofName?_of_usual he, TextEncoding.encoder]
  cases e.encode? value <;> simp

end FieldScope

/-- The bytes of a string literal are those of the units of its body, in their order, and a literal
has none exactly if the encoding lacks a character of a unit. So a literal can spell any bytes
whatever the encoding is. -/
theorem encodeText_literal {scope : FieldScope} {e : TextEncoding}
    (he : TextEncoding.ofName? scope.encoding = some e) :
    (∀ source path tokens token value, tokenize source path = .ok tokens → token ∈ tokens →
      token.lexeme = .string value →
      ∃ body units, token.text = String.ofList ('"' :: (body ++ ['"'])) ∧
        LiteralUnit.Reads body units ∧ (∀ us, LiteralUnit.Reads body us → us = units) ∧
        (∀ b, scope.encodeText value token = .ok b ↔
          ∃ bs, List.Forall₂ (fun u b => LiteralUnit.bytes? e u = some b) units bs ∧
            b = bs.flatten) ∧
        (scope.encodeText value token =
            .error ((Problem.unencodable scope.field scope.encoding e.reason).at token.position) ↔
          ∃ u ∈ units, LiteralUnit.bytes? e u = none)) ∧
    ∀ b, LiteralUnit.Reads (spelled b) (b.map .byte) ∧
      ∀ body path, LiteralUnit.Reads body (b.map .byte) →
        ∃ token value endPosition, tokenize (String.ofList ('"' :: (body ++ ['"']))) path =
            .ok [token, Token.endOfInput endPosition] ∧
          token.lexeme = .string value ∧ scope.encodeText value token = .ok b := by
  refine ⟨?_, fun b => ⟨reads_spelled b, fun body path hu => ?_⟩⟩
  · intro source path tokens token value h ht hl
    obtain ⟨body, units, htext, hu, rfl⟩ := exists_body_of_tokenize h ht hl
    refine ⟨body, units, htext, hu, fun us hus => hu.unique hus, fun b => ?_, ?_⟩
    · rw [FieldScope.encodeText_eq_ok_iff he, LiteralUnit.encode?_units_eq_some]
    · rw [FieldScope.encodeText_eq_error_iff he, LiteralUnit.encode?_units_eq_none]
  · have hb : e.encode? ((b.map LiteralUnit.byte).flatMap LiteralUnit.text) = some b :=
      (LiteralUnit.encode?_units_eq_some e _).mpr
        ⟨_, forall₂_bytes e b, by rw [← List.flatMap_def, List.flatMap_singleton']⟩
    exact ⟨_, _, _, tokenize_literal hu path, rfl, (FieldScope.encodeText_eq_ok_iff he).mpr hb⟩

def Sample.scope : FieldScope where
  field := "label"
  encoding := "mac_roman"

theorem encodeText_literal_sample :
    TextEncoding.ofName? Sample.scope.encoding = some .macRoman ∧
      (∃ token value endPosition, tokenize "\"\u00e9\"" none =
          .ok [token, Token.endOfInput endPosition] ∧
        token.lexeme = .string value ∧ Sample.scope.encodeText value token = .ok [0x8E]) ∧
      LiteralUnit.Reads "\\x00\\xFf".toList [.byte 0, .byte 255] ∧
      ∃ token value endPosition, tokenize "\"\\x00\\xFf\"" none =
          .ok [token, Token.endOfInput endPosition] ∧
        token.lexeme = .string value ∧ Sample.scope.encodeText value token = .ok [0, 255] := by
  have he : TextEncoding.ofName? Sample.scope.encoding = some .macRoman := by decide +kernel
  have hu : LiteralUnit.Reads "\\x00\\xFf".toList [.byte 0, .byte 255] :=
    .byte (.mk (m := 0) (n := 0) rfl rfl rfl) (.byte (.mk (m := 15) (n := 15) rfl rfl rfl) .nil)
  obtain ⟨hliteral, hbytes⟩ := encodeText_literal he
  refine ⟨he, ?_, hu, (hbytes [0, 255]).2 _ none hu⟩
  have htokens : tokenize "\"\u00e9\"" none =
      .ok [⟨.string [.char '\u00e9'], "\"\u00e9\"", .start none⟩,
        Token.endOfInput ⟨none, 1, 4, 3⟩] := by
    decide +kernel
  obtain ⟨body, units, htext, -, hunique, hok, -⟩ :=
    hliteral _ _ _ _ _ htokens List.mem_cons_self rfl
  obtain rfl : body = ['\u00e9'] := by
    have hchars : '"' :: (body ++ ['"']) = '"' :: (['\u00e9'] ++ ['"']) :=
      String.ofList_injective htext.symm
    exact List.append_cancel_right (List.cons.inj hchars).2
  obtain rfl := hunique [.plain '\u00e9'] (.plain (by decide) (by decide) (by decide) .nil)
  exact ⟨_, _, _, htokens, rfl, (hok _).mpr ⟨[[0x8E]], by decide +kernel, rfl⟩⟩

end ResourceScript

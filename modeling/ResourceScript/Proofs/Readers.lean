import ResourceScript.Proofs.Blame
import ResourceScript.Proofs.Stream

namespace ResourceScript

variable {settings : Settings} {t : TypeTemplate} {f : FieldTemplate} {slot : Slot}
  {tokens : List Token} {token : Token} {s : FieldScope} {type : ValueType} {i : IntegerType}
  {c c' : Cursor} {n : Int}

theorem Token.kind_eq_integer (h : token.kind = .integer) : ∃ n, token.lexeme = .integer n := by
  rw [Token.kind] at h
  cases hl : token.lexeme with
  | integer n => exact ⟨n, rfl⟩
  | _ => simp [hl, Lexeme.kind] at h

namespace FieldScope

theorem checkRange_of_holds (hi : type.integers? = some i) (h : i.Holds n) :
    s.checkRange n type token = .ok n := by
  rw [checkRange, hi]
  exact if_pos h

theorem holds_of_checkRange (hi : type.integers? = some i)
    (h : s.checkRange n type token = .ok m) : m = n ∧ i.Holds n := by
  rw [checkRange, hi] at h
  by_cases hn : i.Holds n
  · simp only [hn, if_true, Except.ok.injEq] at h
    exact ⟨h.symm, hn⟩
  · simp only [hn, if_false] at h
    split at h <;> simp at h

theorem explained_checkRange (hi : type.integers? = some i) (ht : token ∈ tokens)
    (hn : Text.isShown n = false → Fault.Excused settings t tokens .noSuchValue)
    (h : s.checkRange n type token = .error e) : Failure.Explained settings t tokens e := by
  rw [checkRange, hi] at h
  simp only at h
  split at h
  · simp at h
  split at h
  case isTrue hs =>
    cases h
    exact .fault (hn (by simpa using hs))
  case isFalse hs =>
    cases h
    exact .at_token rfl ht

/-- The scope has the encoding of the settings. -/
structure IsOf (s : FieldScope) (settings : Settings) : Prop where
  encoding : s.encoding = settings.encoding
  encoders : s.encoders = settings.encoders

theorem encodeText_eq_ok (hs : s.IsOf settings) :
    s.encodeText content token = .ok b ↔ settings.encode? content = some b := by
  rw [encodeText, Settings.encode?, hs.encoding, hs.encoders]
  cases Encoder.ofName? settings.encoders settings.encoding with
  | none => simp
  | some encoder =>
    simp only [Option.bind_some]
    cases hb : encoder content with
    | ok b => simp only [Except.ok.injEq, Except.toOption, Option.some.injEq]
    | error reason => cases reason <;> simp [Except.toOption]

theorem explained_encodeText (hs : s.IsOf settings) (ht : token ∈ tokens)
    (h : s.encodeText content token = .error e) : Failure.Explained settings t tokens e := by
  rw [encodeText, hs.encoding, hs.encoders] at h
  split at h
  case h_1 he =>
    cases h
    exact .fault (.encoding he)
  case h_2 encoder he =>
    split at h
    case h_1 => cases h
    case h_2 =>
      cases h
      exact .at_token rfl ht
    case h_3 hfails =>
      cases h
      exact .fault (.encoder he hfails)

end FieldScope

namespace Slot

theorem valueOf_eq_ok {slot : Slot} :
    slot.valueOf token = .ok v ↔ slot.symbols.lookup token.text = some v := by
  rw [valueOf]
  cases slot.symbols.lookup token.text <;> simp

theorem explained_valueOf {slot : Slot} (ht : token ∈ tokens) (h : slot.valueOf token = .error e) :
    Failure.Explained settings t tokens e := by
  rw [valueOf] at h
  split at h
  · simp at h
  · cases h
    exact .at_token rfl ht

theorem explained_symbol {slot : Slot} (hf : f ∈ t.fields) (hslot : slot ∈ f.slots)
    (h : slot.symbols.lookup token.text = some (.integer n)) (hn : Text.isShown n = false) :
    Fault.Excused settings t tokens .noSuchValue := by
  obtain ⟨l₁, l₂, he, -⟩ := List.lookup_eq_some_iff.mp h
  have hmem : (token.text, SymbolValue.integer n) ∈ slot.symbols := by
    rw [he]
    exact List.mem_append_right l₁ List.mem_cons_self
  exact .symbol hn hf hslot hmem

theorem integer?_of_integer {slot : Slot} (h : token.lexeme = .integer n) :
    slot.integer? token = some n := by
  rw [integer?, h]

theorem integer?_of_symbol {slot : Slot} (h : token.lexeme = .identifier)
    (hs : slot.symbols.lookup token.text = some (.integer n)) : slot.integer? token = some n := by
  rw [integer?, h]
  simp only [hs]

theorem text?_of_string {slot : Slot} (h : token.lexeme = .string content) :
    slot.text? token = some content := by
  rw [text?, h]

theorem text?_of_symbol {slot : Slot} (h : token.lexeme = .identifier)
    (hs : slot.symbols.lookup token.text = some (.text str)) :
    slot.text? token = some (Text.ofString str) := by
  rw [text?, h]
  simp only [hs]

theorem integer?_eq_some {slot : Slot} (h : slot.integer? token = some n) :
    token.lexeme = .integer n ∨
      token.lexeme = .identifier ∧ slot.symbols.lookup token.text = some (.integer n) := by
  rw [integer?] at h
  split at h
  case h_1 m hl => exact .inl (hl.trans (congrArg Lexeme.integer (Option.some.inj h)))
  case h_2 hl =>
    split at h
    case h_1 m hs => exact .inr ⟨hl, hs.trans (by rw [Option.some.inj h])⟩
    case h_2 => simp at h
  case h_3 => simp at h

theorem text?_eq_some {slot : Slot} (h : slot.text? token = some content) :
    token.lexeme = .string content ∨
      ∃ str, token.lexeme = .identifier ∧ slot.symbols.lookup token.text = some (.text str) ∧
        content = Text.ofString str := by
  rw [text?] at h
  split at h
  case h_1 m hl => exact .inl (hl.trans (congrArg Lexeme.string (Option.some.inj h)))
  case h_2 hl =>
    split at h
    case h_1 str hs => exact .inr ⟨str, hl, hs, (Option.some.inj h).symm⟩
    case h_2 => simp at h
  case h_3 => simp at h

end Slot

namespace FieldScope

theorem moves_of_lexeme (h : c.peek.lexeme = l) (hl : l ≠ .endOfInput) :
    c.Moves [c.peek] c.advance := by
  refine Cursor.moves_peek fun hk => hl ?_
  rw [Token.kind, h] at hk
  cases l <;> simp_all [Lexeme.kind]

theorem ends_integer (hi : type.integers? = some i) (hc : c.stream <:+ tokens) (hf : f ∈ t.fields)
    (hslot : slot ∈ f.slots) :
    Ends (s.integer slot type) c
      (fun n c' => ∃ token, c.Moves [token] c' ∧ slot.integer? token = some n ∧ i.Holds n)
      fun e _ => Failure.Explained settings t tokens e := by
  have hp := hc.subset c.peek_mem_stream
  apply CursorM.ends_peek_bind
  split
  case h_1 n hl =>
    refine CursorM.ends_read_bind (CursorM.ends_ofExcept ?_ fun e he => ?_)
    · intro m hm
      obtain ⟨rfl, hn⟩ := holds_of_checkRange hi hm
      exact ⟨c.peek, moves_of_lexeme hl nofun, Slot.integer?_of_integer hl, hn⟩
    · refine explained_checkRange hi hp (fun hn => .number hn hp ?_) he
      rw [hl]
      rfl
  case h_2 hl =>
    refine CursorM.ends_read_bind (Ends.bind (CursorM.ends_ofExcept
      (P := fun v c' => slot.symbols.lookup c.peek.text = some v ∧ c' = c.advance)
      (fun v hv => ⟨Slot.valueOf_eq_ok.mp hv, rfl⟩) fun e he => Slot.explained_valueOf hp he) ?_)
    rintro v _ ⟨hv, rfl⟩
    cases v with
    | integer n =>
      refine CursorM.ends_ofExcept ?_ fun e he => ?_
      · intro m hm
        obtain ⟨rfl, hn⟩ := holds_of_checkRange hi hm
        exact ⟨c.peek, moves_of_lexeme hl nofun, Slot.integer?_of_symbol hl hv, hn⟩
      · exact explained_checkRange hi hp (Slot.explained_symbol hf hslot hv) he
    | text str => exact CursorM.ends_fail (.at_token rfl hp)
  case h_3 => exact CursorM.ends_fail (.at_token rfl hp)

theorem integer_of_moves (hi : type.integers? = some i) (h : c.Moves [token] c')
    (ht : slot.integer? token = some n) (hn : i.Holds n) : s.integer slot type c = .ok n c' := by
  have hr := CursorM.read_of_moves h
  have hk : s.checkRange n type token = .ok n := checkRange_of_holds hi hn
  rw [integer, bind_of_ok _ (CursorM.peek_of_moves h)]
  obtain hl | ⟨hl, hs⟩ := Slot.integer?_eq_some ht
  · simp only [hl]
    rw [bind_of_ok _ hr, hk]
    rfl
  · simp only [hl]
    rw [bind_of_ok _ hr, Slot.valueOf_eq_ok.mpr hs]
    simp only [CursorM.ofExcept, hk, pure_bind]
    rfl

theorem ends_resourceId (hi : type.integers? = some i) (hc : c.stream <:+ tokens) :
    Ends (s.resourceId type) c
      (fun n c' => ∃ token, c.Moves [token] c' ∧ token.lexeme = .resourceId n ∧ i.Holds n)
      fun e _ => Failure.Explained settings t tokens e := by
  have hp := hc.subset c.peek_mem_stream
  apply CursorM.ends_peek_bind
  split
  case h_1 n hl =>
    refine CursorM.ends_read_bind (CursorM.ends_ofExcept ?_ fun e he => ?_)
    · intro m hm
      obtain ⟨rfl, hn⟩ := holds_of_checkRange hi hm
      exact ⟨c.peek, moves_of_lexeme hl nofun, hl, hn⟩
    · refine explained_checkRange hi hp (fun hn => .number hn hp ?_) he
      rw [hl]
      rfl
  case h_2 => exact CursorM.ends_fail (.at_token rfl hp)

theorem resourceId_of_moves (hi : type.integers? = some i) (h : c.Moves [token] c')
    (ht : token.lexeme = .resourceId n) (hn : i.Holds n) : s.resourceId type c = .ok n c' := by
  have hk : s.checkRange n type token = .ok n := checkRange_of_holds hi hn
  rw [resourceId, bind_of_ok _ (CursorM.peek_of_moves h)]
  simp only [ht]
  rw [bind_of_ok _ (CursorM.read_of_moves h), hk]
  rfl

theorem ends_integers (hi : type.integers? = some i) {count : Nat} (hc : c.stream <:+ tokens)
    (he : c.expects (List.replicate count (.ofKind .integer)) = true) :
    Ends (s.integers type count) c
      (fun ns c' => ∃ ts, c.Moves ts c' ∧ ts.length = count ∧
        List.Forall₂ (fun token n => Token.lexeme token = .integer n) ts ns ∧ ∀ n ∈ ns, i.Holds n)
      fun e _ => Failure.Explained settings t tokens e := by
  induction count generalizing c with
  | zero => exact Ends.pure ⟨[], .refl c, rfl, .nil, by simp⟩
  | succ count ih =>
    have hp := hc.subset c.peek_mem_stream
    rw [List.replicate_succ, Cursor.expects_cons, Bool.and_eq_true,
      Expectation.isMetBy_ofKind] at he
    obtain ⟨n, hl⟩ := Token.kind_eq_integer he.1
    have hm := moves_of_lexeme hl nofun
    apply CursorM.ends_read_bind
    simp only [hl]
    refine Ends.bind (CursorM.ends_ofExcept (P := fun m c' => m = n ∧ i.Holds n ∧ c' = c.advance)
      ?_ fun e he => ?_) ?_
    · intro m hm
      obtain ⟨rfl, hn⟩ := holds_of_checkRange hi hm
      exact ⟨rfl, hn, rfl⟩
    · refine explained_checkRange hi hp (fun hn => .number hn hp ?_) he
      rw [hl]
      rfl
    · rintro _ _ ⟨rfl, hn, rfl⟩
      apply (ih (hm.suffix hc) he.2).bind
      rintro ns c' ⟨ts, hts, hlen, hall, hns⟩
      refine Ends.pure ⟨c.peek :: ts, hm.trans hts, congrArg (· + 1) hlen, .cons hl hall, ?_⟩
      exact List.forall_mem_cons.mpr ⟨hn, hns⟩

theorem integers_of_moves (hi : type.integers? = some i) (h : c.Moves ts c')
    (ht : List.Forall₂ (fun token n => Token.lexeme token = .integer n) ts ns)
    (hn : ∀ n ∈ ns, i.Holds n) : s.integers type ts.length c = .ok ns c' := by
  induction ht generalizing c with
  | nil =>
    rw [h.eq_advance]
    exact congrArg _ c.advance_zero.symm
  | @cons token n ts ns hl hall ih =>
    obtain ⟨c₁, h₁, h₂⟩ := h.split_cons
    have hk : s.checkRange n type token = .ok n :=
      checkRange_of_holds hi (hn n List.mem_cons_self)
    have hs := ih h₂ fun m hm => hn m (List.mem_cons_of_mem _ hm)
    rw [List.length_cons, integers, bind_of_ok _ (CursorM.read_of_moves h₁)]
    simp only [hl, hk, CursorM.ofExcept, pure_bind]
    rw [bind_of_ok _ hs]
    rfl

theorem ends_rectangle (hc : c.stream <:+ tokens) :
    Ends s.rectangle c
      (fun ns c' => ∃ ts, c.Moves ts c' ∧ ts.length = 4 ∧
        List.Forall₂ (fun token n => Token.lexeme token = .integer n) ts ns ∧
        ∀ n ∈ ns, IntegerType.component.Holds n)
      fun e _ => Failure.Explained settings t tokens e := by
  apply CursorM.ends_expects_bind
  split
  case isTrue he => exact ends_integers rfl hc he
  case isFalse =>
    exact CursorM.ends_peek_bind (CursorM.ends_fail (.at_token rfl (hc.subset c.peek_mem_stream)))

theorem rectangle_of_moves (h : c.Moves ts c') (hlen : ts.length = 4)
    (ht : List.Forall₂ (fun token n => Token.lexeme token = .integer n) ts ns)
    (hn : ∀ n ∈ ns, IntegerType.component.Holds n) : s.rectangle c = .ok ns c' := by
  have he : c.expects (List.replicate 4 (.ofKind .integer)) = true := by
    apply Cursor.expects_of_moves h
    rw [← hlen]
    clear hlen h hn
    induction ht with
    | nil => exact .nil
    | cons hl _ ih => exact .cons (Expectation.isMetBy_ofKind.mpr (by rw [Token.kind, hl]; rfl)) ih
  rw [rectangle, bind_of_ok _ (show CursorM.expects _ c = .ok true c by rw [CursorM.expects, he])]
  have hs : s.integers .rectangle ts.length c = .ok ns c' := integers_of_moves rfl h ht hn
  rw [hlen] at hs
  exact hs

theorem ends_stringToken (hc : c.stream <:+ tokens) :
    Ends s.stringToken c
      (fun p c' => c.Moves [p.1] c' ∧ p.1.lexeme = .string p.2)
      fun e _ => Failure.Explained settings t tokens e := by
  apply CursorM.ends_peek_bind
  split
  case h_1 content hl =>
    exact CursorM.ends_read_bind (Ends.pure ⟨moves_of_lexeme hl nofun, hl⟩)
  case h_2 => exact CursorM.ends_fail (.at_token rfl (hc.subset c.peek_mem_stream))

theorem stringToken_of_moves (h : c.Moves [token] c') (ht : token.lexeme = .string content) :
    s.stringToken c = .ok (token, content) c' := by
  rw [stringToken, bind_of_ok _ (CursorM.peek_of_moves h)]
  simp only [ht]
  rw [bind_of_ok _ (CursorM.read_of_moves h)]
  rfl

theorem ends_string (hs : s.IsOf settings) (hc : c.stream <:+ tokens) :
    Ends (s.string slot) c
      (fun b c' => ∃ token content, c.Moves [token] c' ∧ slot.text? token = some content ∧
        settings.encode? content = some b)
      fun e _ => Failure.Explained settings t tokens e := by
  have hp := hc.subset c.peek_mem_stream
  apply CursorM.ends_peek_bind
  split
  case h_1 content hl =>
    refine CursorM.ends_read_bind (CursorM.ends_ofExcept (fun b hb => ?_) fun e he => ?_)
    · exact ⟨c.peek, content, moves_of_lexeme hl nofun, Slot.text?_of_string hl,
        (encodeText_eq_ok hs).mp hb⟩
    · exact explained_encodeText hs hp he
  case h_2 hl =>
    refine CursorM.ends_read_bind (Ends.bind (CursorM.ends_ofExcept
      (P := fun v c' => slot.symbols.lookup c.peek.text = some v ∧ c' = c.advance)
      (fun v hv => ⟨Slot.valueOf_eq_ok.mp hv, rfl⟩) fun e he => Slot.explained_valueOf hp he) ?_)
    rintro v _ ⟨hv, rfl⟩
    cases v with
    | integer n => exact CursorM.ends_fail (.at_token rfl hp)
    | text str =>
      refine CursorM.ends_ofExcept (fun b hb => ?_) fun e he => explained_encodeText hs hp he
      exact ⟨c.peek, _, moves_of_lexeme hl nofun, Slot.text?_of_symbol hl hv,
        (encodeText_eq_ok hs).mp hb⟩
  case h_3 => exact CursorM.ends_fail (.at_token rfl hp)

theorem string_of_moves (hs : s.IsOf settings) (h : c.Moves [token] c')
    (ht : slot.text? token = some content) (hb : settings.encode? content = some b) :
    s.string slot c = .ok b c' := by
  have hr := CursorM.read_of_moves h
  have hk : s.encodeText content token = .ok b := (encodeText_eq_ok hs).mpr hb
  rw [string, bind_of_ok _ (CursorM.peek_of_moves h)]
  obtain hl | ⟨str, hl, hv, rfl⟩ := Slot.text?_eq_some ht
  · simp only [hl]
    rw [bind_of_ok _ hr, hk]
    rfl
  · simp only [hl]
    rw [bind_of_ok _ hr, Slot.valueOf_eq_ok.mpr hv]
    simp only [CursorM.ofExcept, hk, pure_bind]
    rfl

theorem ends_maskTerm (hc : c.stream <:+ tokens) :
    Ends (maskTerm slot) c
      (fun n c' => ∃ token, c.Moves [token] c' ∧ slot.integer? token = some n)
      fun e _ => Failure.Explained settings t tokens e := by
  have hp := hc.subset c.peek_mem_stream
  apply CursorM.ends_peek_bind
  split
  case h_1 n hl =>
    exact CursorM.ends_read_bind
      (Ends.pure ⟨c.peek, moves_of_lexeme hl nofun, Slot.integer?_of_integer hl⟩)
  case h_2 hl =>
    refine CursorM.ends_read_bind (Ends.bind (CursorM.ends_ofExcept
      (P := fun v c' => slot.symbols.lookup c.peek.text = some v ∧ c' = c.advance)
      (fun v hv => ⟨Slot.valueOf_eq_ok.mp hv, rfl⟩) fun e he => Slot.explained_valueOf hp he) ?_)
    rintro v _ ⟨hv, rfl⟩
    cases v with
    | integer n =>
      exact Ends.pure ⟨c.peek, moves_of_lexeme hl nofun, Slot.integer?_of_symbol hl hv⟩
    | text str => exact CursorM.ends_fail (.at_token rfl hp)
  case h_3 => exact CursorM.ends_fail (.at_token rfl hp)

theorem maskTerm_of_moves (h : c.Moves [token] c') (ht : slot.integer? token = some n) :
    maskTerm slot c = .ok n c' := by
  have hr := CursorM.read_of_moves h
  rw [maskTerm, bind_of_ok _ (CursorM.peek_of_moves h)]
  obtain hl | ⟨hl, hv⟩ := Slot.integer?_eq_some ht
  · simp only [hl]
    rw [bind_of_ok _ hr]
    rfl
  · simp only [hl]
    rw [bind_of_ok _ hr, Slot.valueOf_eq_ok.mpr hv]
    rfl

end FieldScope

end ResourceScript

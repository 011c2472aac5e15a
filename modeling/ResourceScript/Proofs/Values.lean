import ResourceScript.Proofs.Readers

namespace ResourceScript

/-- Consuming the tokens `ts` leads from `s` to `s'`, and no id is taken on the way. -/
structure Session.Moves (s : Session) (ts : List Token) (s' : Session) : Prop where
  cursor : s.cursor.Moves ts s'.cursor
  registry : s'.registry = s.registry

/-- A failure that reading the declarations of `tokens` can end in, with no id taken since `s`. -/
structure Session.FailsBy (s : Session) (settings : Settings) (t : TypeTemplate)
    (tokens : List Token) (e : Failure) (s' : Session) : Prop where
  explained : Failure.Explained settings t tokens e
  registry : s'.registry = s.registry

/-- A failure that tells its place as well. -/
structure Session.FailsAt (s : Session) (settings : Settings) (t : TypeTemplate)
    (tokens : List Token) (e : Failure) (s' : Session) : Prop extends
    s.FailsBy settings t tokens e s' where
  hasPlace : e.HasPlace

/-- The rules give the slot a value for the tokens between two places, and its entry holds it. -/
def Assignment.Spells (a : Assignment) (slot : Slot) (d : Directive) (c : Cursor) (v : Value)
    (c' : Cursor) : Prop :=
  ∃ ts, c.Moves ts c' ∧ Grammar.SlotValue a.settings a.type a.field slot d ts v ∧
    v.Admissible (a.typeOf slot)

variable {a : Assignment} {slot : Slot} {tokens : List Token} {token word : Token}
  {type : ValueType} {c c' : Cursor} {s s' : Session} {b : Bytes} {d : Directive}
  {settings : Settings} {t : TypeTemplate}

namespace Session

theorem Moves.refl (s : Session) : s.Moves [] s :=
  ⟨.refl _, rfl⟩

theorem Moves.trans (h : s.Moves ts s') (h' : s'.Moves us s'') : s.Moves (ts ++ us) s'' :=
  ⟨h.cursor.trans h'.cursor, h'.registry.trans h.registry⟩

theorem FailsBy.after (h : s'.FailsBy settings t tokens e s'') (hs : s'.registry = s.registry) :
    s.FailsBy settings t tokens e s'' :=
  ⟨h.explained, h.registry.trans hs⟩

theorem FailsAt.after (h : s'.FailsAt settings t tokens e s'') (hs : s'.registry = s.registry) :
    s.FailsAt settings t tokens e s'' :=
  ⟨h.toFailsBy.after hs, h.hasPlace⟩

theorem FailsBy.locate (h : s.FailsBy settings t tokens e s') (ht : token ∈ tokens) :
    s.FailsAt settings t tokens (e.locate token.position) s' :=
  ⟨⟨h.explained.locate ht, h.registry⟩, Failure.hasPlace_locate e⟩

end Session

namespace Compilation

theorem ends_reader_bind {m : CursorM α} {f : α → Compilation β} (hr : s'.registry = s.registry)
    (h : Ends m s'.cursor M fun e _ => Failure.Explained settings t tokens e)
    (hf : ∀ v c, M v c → Ends (f v) { s' with cursor := c } P (s.FailsBy settings t tokens)) :
    Ends (liftM m >>= f) s' P (s.FailsBy settings t tokens) := by
  refine Ends.bind (ends_onCursor (P := fun v s'' => ∃ c, M v c ∧ s'' = { s' with cursor := c })
    (h.mono (fun v c hv => ⟨c, hv, rfl⟩) fun _ _ he => ⟨he, hr⟩)) ?_
  rintro v _ ⟨c, hv, rfl⟩
  exact hf v c hv

theorem ends_reader {m : CursorM α}
    (h : Ends m s.cursor M fun e _ => Failure.Explained settings t tokens e)
    (hf : ∀ v c, M v c → P v { s with cursor := c }) :
    Ends (liftM m) s P (s.FailsBy settings t tokens) :=
  ends_onCursor (h.mono hf fun _ _ he => ⟨he, rfl⟩)

theorem reader_of_ok {m : CursorM α} (h : m s.cursor = .ok v c) :
    (liftM m : Compilation α) s = .ok v { s with cursor := c } :=
  onCursor_of_ok h

theorem peek_eq : (liftM CursorM.peek : Compilation Token) s = .ok s.cursor.peek s := rfl

theorem reader_of_error {m : CursorM α} (h : m s.cursor = .error e c) :
    (liftM m : Compilation α) s = .error e { s with cursor := c } :=
  onCursor_of_error h

theorem get_eq : (get : Compilation Session) s = .ok s s := rfl

theorem ends_peek_bind {f : Token → Compilation α} (h : Ends (f s.cursor.peek) s P Q) :
    Ends (liftM CursorM.peek >>= f) s P Q := h

theorem ends_read_bind {f : Token → Compilation α}
    (h : Ends (f s.cursor.peek) { s with cursor := s.cursor.advance } P Q) :
    Ends (liftM CursorM.read >>= f) s P Q := h

theorem ends_expects_bind {es : List Expectation} {f : Bool → Compilation α}
    (h : Ends (f (s.cursor.expects es)) s P Q) :
    Ends (liftM (CursorM.expects es) >>= f) s P Q := h

end Compilation

namespace Assignment

theorem fit_eq_ok :
    a.fit type b = .ok b' ↔ b' = b ∧ ∀ limit, type.textLimit? = some limit → b.length ≤ limit := by
  rw [fit]
  cases type.textLimit? with
  | none => simp [eq_comm]
  | some limit =>
    by_cases h : limit < b.length
    · simp [h]
    · simp [h, Nat.le_of_not_lt h, eq_comm]

theorem explained_fit (h : a.fit type b = .error e) :
    Failure.Explained settings t tokens e := by
  rw [fit] at h
  split at h
  · simp at h
  · split at h
    · cases h
      exact .anywhere rfl
    · simp at h

theorem admissible_of_fit (hb : type.holdsBytes = true) (h : a.fit type b = .ok b') :
    b' = b ∧ (Value.bytes b).Admissible type := by
  obtain ⟨rfl, hl⟩ := fit_eq_ok.mp h
  refine ⟨rfl, ?_⟩
  cases type with
  | pascal => exact hl 255 rfl
  | fixed size => exact hl size rfl
  | terminated => trivial
  | raw => trivial
  | _ => simp [ValueType.holdsBytes] at hb

theorem fit_of_admissible (h : (Value.bytes b).Admissible type) : a.fit type b = .ok b := by
  refine fit_eq_ok.mpr ⟨rfl, fun limit hl => ?_⟩
  cases type with
  | pascal =>
    obtain rfl := Option.some.inj hl
    exact h
  | fixed size =>
    obtain rfl := Option.some.inj hl
    exact h
  | _ => simp [ValueType.textLimit?] at hl

theorem holdsBytes_of_admissible (h : (Value.bytes b).Admissible type) :
    type.holdsBytes = true := by
  cases type <;> first | rfl | exact h.elim

theorem ends_text (hb : type.holdsBytes = true) (hr : type ≠ .raw) (ht : a.typeOf slot = type)
    (hc : c.stream <:+ tokens) :
    Ends (do
        let b ← a.scope.string slot
        let b ← CursorM.ofExcept (a.fit type b)
        return .bytes b) c (a.Spells slot .positional c)
      fun e _ => Failure.Explained a.settings a.type tokens e := by
  apply (FieldScope.ends_string ⟨rfl, rfl⟩ hc).bind
  rintro b c' ⟨token, content, hm, hs, he⟩
  refine Ends.bind (CursorM.ends_ofExcept
    (P := fun b' c'' => b' = b ∧ (Value.bytes b).Admissible type ∧ c'' = c')
    (fun b' hb' => ?_) fun e he => explained_fit he) ?_
  · obtain ⟨rfl, ha⟩ := admissible_of_fit hb hb'
    exact ⟨rfl, ha, rfl⟩
  · rintro _ _ ⟨rfl, ha, rfl⟩
    exact Ends.pure ⟨[token], hm, .string hs he fun h => hr (ht.symm.trans h), ht ▸ ha⟩

theorem ends_literal (ht : a.typeOf slot = type) (hf : a.field ∈ a.type.fields)
    (hslot : slot ∈ a.field.slots) (hc : c.stream <:+ tokens) :
    Ends (a.literal slot type) c (a.Spells slot .positional c)
      fun e _ => Failure.Explained a.settings a.type tokens e := by
  have hp := hc.subset c.peek_mem_stream
  cases type with
  | integer i =>
    apply (FieldScope.ends_integer rfl hc hf hslot).bind
    rintro n c' ⟨token, hm, hn, hr⟩
    exact Ends.pure ⟨[token], hm, .integer hn, ht ▸ hr⟩
  | pascal => exact ends_text rfl nofun ht hc
  | terminated => exact ends_text rfl nofun ht hc
  | fixed size => exact ends_text rfl nofun ht hc
  | rectangle =>
    apply (FieldScope.ends_rectangle hc).bind
    rintro ns c' ⟨ts, hm, hlen, hl, hr⟩
    exact Ends.pure ⟨ts, hm, .rectangle hlen hl, ht ▸ ⟨hl.length_eq ▸ hlen, hr⟩⟩
  | raw => exact CursorM.ends_peek_bind (CursorM.ends_fail (.at_token rfl hp))
  | unknown => exact CursorM.ends_peek_bind (CursorM.ends_fail (.at_token rfl hp))

theorem literal_of_moves (h : c.Moves ts c')
    (hv : Grammar.SlotValue a.settings a.type a.field slot .positional ts v)
    (ha : v.Admissible (a.typeOf slot)) : a.literal slot (a.typeOf slot) c = .ok v c' := by
  cases hv with
  | integer hn =>
    cases htype : a.typeOf slot with
    | integer i =>
      rw [htype] at ha
      rw [literal, bind_of_ok _ (FieldScope.integer_of_moves rfl h hn ha)]
      rfl
    | _ => simp [htype, Value.Admissible] at ha
  | string hs hb hr =>
    have hfit := fit_of_admissible (a := a) ha
    have hread : a.scope.string slot c = .ok _ c' := FieldScope.string_of_moves ⟨rfl, rfl⟩ h hs hb
    cases htype : a.typeOf slot with
    | raw => exact absurd htype hr
    | pascal | terminated | fixed =>
      rw [htype] at hfit
      simp only [literal]
      rw [bind_of_ok _ hread, hfit]
      rfl
    | _ => simp [htype, Value.Admissible] at ha
  | rectangle hlen hl =>
    cases htype : a.typeOf slot with
    | rectangle =>
      rw [htype] at ha
      rw [literal, bind_of_ok _ (FieldScope.rectangle_of_moves h hlen hl ha.2)]
      rfl
    | _ => simp [htype, Value.Admissible] at ha

theorem integers?_of_holdsReference (h : type.holdsReference = true) :
    ∃ i, type = .integer i := by
  cases type with
  | integer i => exact ⟨i, rfl⟩
  | _ => simp [ValueType.holdsReference] at h

theorem ends_reference (hc : c.stream <:+ tokens) :
    Ends (a.reference slot) c (a.Spells slot .reference c)
      fun e _ => Failure.Explained a.settings a.type tokens e := by
  unfold reference
  simp only
  split
  case isTrue hr =>
    obtain ⟨i, hi⟩ := integers?_of_holdsReference hr
    apply (FieldScope.ends_resourceId (i := i) (by rw [hi]; rfl) hc).bind
    rintro n c' ⟨token, hm, hl, hn⟩
    exact Ends.pure ⟨[token], hm, .reference hl hr, by rw [hi]; exact hn⟩
  case isFalse => exact CursorM.ends_fail (.anywhere rfl)

theorem reference_of_moves (h : c.Moves ts c')
    (hv : Grammar.SlotValue a.settings a.type a.field slot .reference ts v)
    (ha : v.Admissible (a.typeOf slot)) : a.reference slot c = .ok v c' := by
  cases hv with
  | reference hl hr =>
    have hr : (a.typeOf slot).holdsReference = true := hr
    obtain ⟨i, hi⟩ := integers?_of_holdsReference hr
    rw [hi] at ha
    rw [reference]
    simp only [hr, if_true]
    rw [bind_of_ok _ (FieldScope.resourceId_of_moves (by rw [hi]; rfl) h hl ha)]
    rfl

theorem explained_sourcePath
    (h : sourcePath settings.files.working settings.root content = .error e) :
    Failure.Explained settings t tokens e := by
  rw [sourcePath] at h
  split at h
  · cases h
    exact .anywhere rfl
  · simp at h

theorem explained_readWithin (hw : [word, token] <:+: tokens) (hword : word.IsWord "import")
    (hl : token.lexeme = .string content)
    (hp : sourcePath settings.files.working settings.root content = .ok path)
    (h : settings.files.readWithin settings.limit path = .error e) :
    Failure.Explained settings t tokens e := by
  rw [FileTree.readWithin] at h
  split at h
  · split at h
    · cases h
      exact .anywhere rfl
    · simp at h
  case h_2 hs =>
    cases h
    exact .fault (.file hw hword hl hp hs)
  · cases h
    exact .anywhere rfl

theorem ends_importFile (hr : s'.registry = s.registry) (hw : [word, token] <:+: tokens)
    (hword : word.IsWord "import") (hl : token.lexeme = .string content) :
    Ends (a.importFile token content) s'
      (fun b s'' => a.settings.import? content = some b ∧ s'.Moves [] s'')
      (s.FailsBy a.settings a.type tokens) := by
  have ht : token ∈ tokens := hw.subset (by simp)
  refine Ends.bind (Compilation.ends_locating (Compilation.ends_ofExcept
    (P := fun p s'' => a.settings.import? content = some p.2 ∧ s' = s'') ?_ ?_)) ?_
  · intro p hp
    obtain ⟨path, hpath, hp⟩ := Except.bind_eq_ok.mp hp
    obtain ⟨data, hdata, hp⟩ := Except.bind_eq_ok.mp hp
    cases hp
    exact ⟨by rw [Settings.import?, hpath]; simp [hdata, Except.toOption], rfl⟩
  · intro e he
    refine ⟨Failure.Explained.locate ?_ ht, hr⟩
    obtain he | ⟨path, hpath, he⟩ := Except.bind_eq_error.mp he
    · exact explained_sourcePath he
    · obtain he | ⟨data, hdata, he⟩ := Except.bind_eq_error.mp he
      · exact explained_readWithin hw hword hl hpath he
      · cases he
  · rintro ⟨path, data⟩ _ ⟨hb, rfl⟩
    exact Ends.bind (Compilation.ends_note (P := fun _ s'' => s'.Moves [] s'')
      ⟨.refl _, rfl⟩) fun _ _ h => Ends.pure ⟨hb, h⟩

theorem importFile_of_import (h : a.settings.import? content = some b) :
    ∃ journal, a.importFile token content s = .ok b { s with journal } := by
  rw [Settings.import?] at h
  split at h
  case h_2 => simp at h
  case h_1 path hpath =>
    cases hdata : a.settings.files.readWithin a.settings.limit path with
    | error e => simp [hdata, Except.toOption] at h
    | ok data =>
      obtain rfl : data = b := by simpa [hdata, Except.toOption] using h
      have hfile : Compilation.locating token.position (Compilation.ofExcept do
          let path ← sourcePath a.settings.files.working a.settings.root content
          let data ← a.settings.files.readWithin a.settings.limit path
          return (path, data)) s = .ok (path, data) s := by
        refine Compilation.locating_of_ok (Compilation.ofExcept_of_ok ?_)
        exact Except.bind_eq_ok.mpr ⟨path, hpath, Except.bind_eq_ok.mpr ⟨data, hdata, rfl⟩⟩
      rw [importFile, bind_of_ok _ hfile]
      exact ⟨_, rfl⟩

theorem hold_eq_ok :
    a.hold slot b = .ok v ↔ v = .bytes b ∧ (Value.bytes b).Admissible (a.typeOf slot) := by
  rw [hold]
  constructor
  · intro h
    split at h
    case isTrue hb =>
      cases hfit : a.fit (a.typeOf slot) b with
      | error e => simp [hfit, Except.map] at h
      | ok b' =>
        obtain ⟨rfl, ha⟩ := admissible_of_fit hb hfit
        exact ⟨by simpa [hfit, Except.map, eq_comm] using h, ha⟩
    case isFalse => simp at h
  · rintro ⟨rfl, ha⟩
    rw [if_pos (holdsBytes_of_admissible ha), fit_of_admissible ha]
    rfl

theorem explained_hold (h : a.hold slot b = .error e) : Failure.Explained settings t tokens e := by
  rw [hold] at h
  split at h
  · cases hfit : a.fit (a.typeOf slot) b with
    | error e =>
      obtain rfl := by simpa [hfit, Except.map] using h
      exact explained_fit hfit
    | ok b' => simp [hfit, Except.map] at h
  · cases h
    exact .anywhere rfl

theorem ends_hold (hv : Grammar.SlotValue a.settings a.type a.field slot d ts (.bytes b))
    (hm : s.Moves ts s') :
    Ends (Compilation.ofExcept (a.hold slot b)) s'
      (fun v s' => a.Spells slot d s.cursor v s'.cursor ∧ s'.registry = s.registry)
      (s.FailsBy a.settings a.type tokens) := by
  refine Compilation.ends_ofExcept ?_ fun e he => ⟨explained_hold he, hm.registry⟩
  intro v h
  obtain ⟨rfl, ha⟩ := hold_eq_ok.mp h
  exact ⟨⟨ts, hm.cursor, hv, ha⟩, hm.registry⟩

theorem ends_file (hc : s.cursor.stream <:+ tokens) :
    Ends (a.file slot) s
      (fun v s' => a.Spells slot .file s.cursor v s'.cursor ∧ s'.registry = s.registry)
      (s.FailsBy a.settings a.type tokens) := by
  apply Compilation.ends_expects_bind
  split
  case isTrue himported =>
    have hi : s.cursor.peek.IsWord "import" := by
      rwa [Cursor.expects_single, Expectation.isMetBy_word] at himported
    have hw : s.cursor.Moves [s.cursor.peek] s.cursor.advance :=
      Cursor.moves_peek (by rw [hi.1]; decide)
    refine Compilation.ends_read_bind (Compilation.ends_reader_bind rfl
      (FieldScope.ends_stringToken (hw.suffix hc)) ?_)
    rintro ⟨token, content⟩ c ⟨hm, hl⟩
    have hm := hw.trans hm
    refine Ends.bind (ends_importFile rfl (hm.isInfix hc) hi hl) ?_
    rintro b s₁ ⟨hb, hs⟩
    exact ends_hold (.contents hi hl hb) ⟨hm.trans hs.cursor, hs.registry⟩
  case isFalse himported =>
    apply Compilation.ends_reader_bind rfl (FieldScope.ends_stringToken hc)
    rintro ⟨token, content⟩ c ⟨hm, hl⟩
    have ht : token ∈ tokens := (hm.isInfix hc).subset List.mem_cons_self
    refine Ends.bind (Compilation.ends_ofExcept
      (P := fun b s' => a.settings.encode? content = some b ∧ s.Moves [token] s') ?_
      fun e he => ?_) ?_
    · intro b hb
      exact ⟨(FieldScope.encodeText_eq_ok ⟨rfl, rfl⟩).mp hb, hm, rfl⟩
    · exact ⟨FieldScope.explained_encodeText ⟨rfl, rfl⟩ ht he, rfl⟩
    · rintro b s₁ ⟨hb, hs⟩
      exact ends_hold (.text hl hb) hs

theorem file_of_moves (h : s.cursor.Moves ts c)
    (hv : Grammar.SlotValue a.settings a.type a.field slot .file ts v)
    (ha : v.Admissible (a.typeOf slot)) :
    ∃ journal, a.file slot s = .ok v { s with cursor := c, journal } := by
  cases hv with
  | @text content b token hl hb =>
    have himported : s.cursor.expects [.word "import"] = false := by
      rw [Cursor.expects_single, Bool.eq_false_iff, ne_eq, Expectation.isMetBy_word,
        Cursor.peek_of_moves h, Token.kind, hl]
      simp [Lexeme.kind]
    have hs := FieldScope.stringToken_of_moves (s := a.scope) h hl
    have hk : a.scope.encodeText content token = .ok b :=
      (FieldScope.encodeText_eq_ok ⟨rfl, rfl⟩).mpr hb
    refine ⟨s.journal, ?_⟩
    rw [file, bind_of_ok _ (Compilation.reader_of_ok (CursorM.expects_eq himported))]
    simp only [Bool.false_eq_true, if_false]
    rw [bind_of_ok _ (Compilation.reader_of_ok hs),
      bind_of_ok _ (Compilation.ofExcept_of_ok hk)]
    exact Compilation.ofExcept_of_ok (hold_eq_ok.mpr ⟨rfl, ha⟩)
  | contents hi hl hb =>
    obtain ⟨c₁, h₁, h₂⟩ := h.split_cons
    have himported : s.cursor.expects [.word "import"] = true := by
      rwa [Cursor.expects_single, Expectation.isMetBy_word, Cursor.peek_of_moves h]
    have hs := FieldScope.stringToken_of_moves (s := a.scope) h₂ hl
    obtain ⟨journal, hj⟩ := importFile_of_import (a := a) (s := { s with cursor := c }) hb
    refine ⟨journal, ?_⟩
    rw [file, bind_of_ok _ (Compilation.reader_of_ok (CursorM.expects_eq himported))]
    simp only [if_true]
    rw [bind_of_ok _ (Compilation.reader_of_ok (CursorM.read_of_moves h₁)),
      bind_of_ok _ (Compilation.reader_of_ok hs), bind_of_ok _ hj]
    exact Compilation.ofExcept_of_ok (hold_eq_ok.mpr ⟨rfl, ha⟩)

theorem ends_image (hc : c.stream <:+ tokens) :
    Ends (a.image label) c P fun e _ => Failure.Explained a.settings a.type tokens e := by
  apply (FieldScope.ends_stringToken hc).bind
  rintro ⟨token, content⟩ c ⟨hm, -⟩
  exact CursorM.ends_fail (.at_token rfl ((hm.isInfix hc).subset List.mem_cons_self))

theorem ends_joinTerm (hc : c.stream <:+ tokens) (hbar : c.expects [.ofKind .pipe] = true) :
    Ends (joinTerm slot mask) c
      (fun mask' c' => ∃ bar token n, c.Moves [bar, token] c' ∧ bar.kind = .pipe ∧
        slot.integer? token = some n ∧ mask' = mask ||| maskBits n)
      fun e _ => Failure.Explained settings t tokens e := by
  rw [Cursor.expects_single, Expectation.isMetBy_ofKind] at hbar
  have hm : c.Moves [c.peek] c.advance := Cursor.moves_peek (by rw [hbar]; decide)
  refine CursorM.ends_read_bind ((FieldScope.ends_maskTerm (hm.suffix hc)).bind ?_)
  rintro n c' ⟨token, hn, ht⟩
  exact Ends.pure ⟨c.peek, token, n, hm.trans hn, hbar, ht, rfl⟩

theorem ends_maskTerms (hc : c.stream <:+ tokens) :
    Ends (a.maskTerms slot) c
      (fun mask c' => ∃ ts ns, c.Moves ts c' ∧ Grammar.MaskTerms slot ts ns ∧
        mask = Grammar.maskOf ns)
      fun e _ => Failure.Explained settings t tokens e := by
  apply CursorM.ends_isAt_bind
  split
  case isTrue => exact Ends.pure ⟨[], [], .refl c, .none, rfl⟩
  case isFalse =>
    apply (FieldScope.ends_maskTerm hc).bind
    rintro n c₁ ⟨token, hm, hn⟩
    refine Ends.bind (Ends.repeatWhile (I := fun mask c' => ∃ ts ns, c.Moves (token :: ts) c' ∧
      Grammar.MoreTerms slot ts ns ∧ mask = Grammar.maskOf (n :: ns)) ?_
      ⟨[], [], hm, .nil, (Grammar.maskOf_singleton n).symm⟩) ?_
    · rintro mask c' ⟨ts, ns, hts, hns, rfl⟩ hbar
      apply (ends_joinTerm (hts.suffix hc) hbar).imp
      rintro _ c'' ⟨bar, token', m, hm', hk, ht, rfl⟩
      refine ⟨⟨_, _, hts.trans hm', hns.snoc hk ht, (Grammar.maskOf_snoc (n :: ns) m).symm⟩, ?_⟩
      rw [hm'.length]
      exact Nat.lt_add_of_pos_left (by simp)
    · rintro mask c' ⟨⟨ts, ns, hts, hns, rfl⟩, -⟩
      apply CursorM.ends_isAt_bind
      split
      case isTrue => exact Ends.pure ⟨_, _, hts, .some hn hns, rfl⟩
      case isFalse =>
        refine CursorM.ends_peek_bind (CursorM.ends_fail (.at_token rfl ?_))
        exact (hts.suffix hc).subset (Cursor.peek_mem_stream c')

theorem joinTerms_of_moves (ht : Grammar.MoreTerms slot ts ns) (h : c.Moves ts c')
    (hk : c'.peek.kind = .semicolon) (mask : Nat) :
    repeatWhile (fun c => c.rest.length) (·.expects [.ofKind .pipe]) (joinTerm slot) mask c =
      .ok (ns.foldl (fun mask n => mask ||| maskBits n) mask) c' := by
  induction ht generalizing c mask with
  | nil =>
    rw [h.eq_of_nil] at hk ⊢
    rw [repeatWhile_done, List.foldl_nil]
    rw [Cursor.expects_single, Bool.eq_false_iff, ne_eq, Expectation.isMetBy_ofKind, hk]
    decide
  | @cons token n ts ns bar hbar hn _ ih =>
    obtain ⟨c₁, h₁, h₂⟩ := h.split_cons
    obtain ⟨c₂, h₂, h₃⟩ := h₂.split_cons
    have hround : joinTerm slot mask c = .ok (mask ||| maskBits n) c₂ := by
      rw [joinTerm, bind_of_ok _ (CursorM.read_of_moves h₁),
        bind_of_ok _ (FieldScope.maskTerm_of_moves h₂ hn)]
      rfl
    rw [repeatWhile_round _ hround]
    · exact ih h₃ _
    · rw [(h₁.trans h₂).length]
      exact Nat.lt_add_of_pos_left (by simp)
    · rwa [Cursor.expects_single, Expectation.isMetBy_ofKind, Cursor.peek_of_moves h]

theorem maskTerms_of_moves (ht : Grammar.MaskTerms slot ts ns) (h : c.Moves ts c')
    (hk : c'.peek.kind = .semicolon) :
    a.maskTerms slot c = .ok (Grammar.maskOf ns) c' := by
  cases ht with
  | none =>
    rw [h.eq_of_nil] at hk ⊢
    rw [maskTerms, bind_of_ok _ CursorM.isAt_eq, hk]
    rfl
  | @some token n ts ns hn hns =>
    obtain ⟨c₁, h₁, h₂⟩ := h.split_cons
    have hp : c.peek.kind ≠ .semicolon := by
      rw [Cursor.peek_of_moves h, Token.kind]
      obtain hl | ⟨hl, -⟩ := Slot.integer?_eq_some hn <;> simp [hl, Lexeme.kind]
    rw [maskTerms, bind_of_ok _ CursorM.isAt_eq]
    simp only [beq_iff_eq, hp, if_false]
    rw [bind_of_ok _ (FieldScope.maskTerm_of_moves h₁ hn),
      bind_of_ok _ (joinTerms_of_moves hns h₂ hk _), bind_of_ok _ CursorM.isAt_eq, hk]
    simp only [beq_self_eq_true, if_true]
    rw [← Grammar.maskOf_singleton]
    rfl

theorem unsigned?_eq_some (h : type.unsigned? = some i) :
    type = .integer i ∧ i.signed = false := by
  cases type with
  | integer i' =>
    rw [ValueType.unsigned?] at h
    split at h
    case isTrue => simp at h
    case isFalse hs =>
      obtain rfl := Option.some.inj h
      exact ⟨rfl, by simpa using hs⟩
  | _ => simp [ValueType.unsigned?] at h

theorem holds_mod {i : IntegerType} (h : i.signed = false) (m : Nat) :
    i.Holds (m % i.width.count : Nat) := by
  have hpos : 0 < i.width.count := by cases i.width <;> decide
  have hlt := Nat.mod_lt m hpos
  simp only [IntegerType.Holds, IntegerType.lo, IntegerType.hi, h, Bool.false_eq_true, if_false]
  omega

theorem ends_bitmask (hc : c.stream <:+ tokens) :
    Ends (a.bitmask slot) c (a.Spells slot .bitmask c)
      fun e _ => Failure.Explained settings t tokens e := by
  unfold bitmask
  simp only
  split
  case isTrue => exact Ends.bind (CursorM.ends_fail (P := fun _ _ => False) (.anywhere rfl)) nofun
  case isFalse ho =>
    split
    case h_1 => exact CursorM.ends_fail (.anywhere rfl)
    case h_2 i hi =>
      obtain ⟨htype, hs⟩ := unsigned?_eq_some hi
      apply (ends_maskTerms hc).bind
      rintro _ c' ⟨ts, ns, hm, ht, rfl⟩
      refine Ends.pure ⟨ts, hm, .mask (by simpa using ho) hi ht, ?_⟩
      rw [htype]
      exact holds_mod hs _

theorem bitmask_of_moves (h : c.Moves ts c')
    (hv : Grammar.SlotValue a.settings a.type a.field slot .bitmask ts v)
    (hk : c'.peek.kind = .semicolon) : a.bitmask slot c = .ok v c' := by
  cases hv with
  | mask ho hi ht =>
    have hi : (a.typeOf slot).unsigned? = _ := hi
    rw [bitmask]
    simp only [ho, List.isEmpty_nil, Bool.not_true, Bool.false_eq_true, if_false, hi]
    rw [bind_of_ok _ (maskTerms_of_moves ht h hk)]
    rfl

/-- Whatever the directive, what is read as the value of a slot is spelled by the tokens that were
consumed, and the entry of the slot holds it. -/
theorem ends_value (hf : a.field ∈ a.type.fields) (hslot : slot ∈ a.field.slots)
    (hc : s.cursor.stream <:+ tokens) (d : Directive) :
    Ends (a.value slot d) s
      (fun v s' => a.Spells slot d s.cursor v s'.cursor ∧ s'.registry = s.registry)
      (s.FailsBy a.settings a.type tokens) := by
  have hsession (v : Value) (c : Cursor) (h : a.Spells slot d s.cursor v c) :
      a.Spells slot d s.cursor v c ∧ s.registry = s.registry := ⟨h, rfl⟩
  cases d with
  | reference => exact Compilation.ends_reader (ends_reference hc) hsession
  | file => exact ends_file hc
  | picture => exact Compilation.ends_reader (ends_image hc) hsession
  | sprite => exact Compilation.ends_reader (ends_image hc) hsession
  | colorIcon => exact Compilation.ends_reader (ends_image hc) hsession
  | bitmask => exact Compilation.ends_reader (ends_bitmask hc) hsession
  | positional => exact Compilation.ends_reader (ends_literal rfl hf hslot hc) hsession

theorem value_of_moves (h : s.cursor.Moves ts c)
    (hv : Grammar.SlotValue a.settings a.type a.field slot d ts v)
    (ha : v.Admissible (a.typeOf slot)) (hk : d = .bitmask → c.peek.kind = .semicolon) :
    ∃ journal, a.value slot d s = .ok v { s with cursor := c, journal } := by
  cases d with
  | reference => exact ⟨_, Compilation.reader_of_ok (reference_of_moves h hv ha)⟩
  | file => exact file_of_moves h hv ha
  | bitmask => exact ⟨_, Compilation.reader_of_ok (bitmask_of_moves h hv (hk rfl))⟩
  | positional => exact ⟨_, Compilation.reader_of_ok (literal_of_moves h hv ha)⟩
  | _ => cases hv

end Assignment

end ResourceScript

import ResourceScript.Proofs.Division
import ResourceScript.Proofs.Lookahead
import ResourceScript.Proofs.Scripts

namespace ResourceScript

/-- A loop with nothing but its condition to end it. -/
inductive Loops (more : σ → Bool) (step : α → EStateM ε σ α) :
    α → σ → EStateM.Result ε σ α → Prop where
  | done : more s = false → Loops more step a s (.ok a s)
  | failed : more s = true → step a s = .error e s' → Loops more step a s (.error e s')
  | round : more s = true → step a s = .ok b s' → Loops more step b s' r → Loops more step a s r

theorem loops_repeatWhile {measure : σ → Nat} {more : σ → Bool} {step : α → EStateM ε σ α}
    (hstep : ∀ a s, more s = true →
      Ends (step a) s (fun _ s' => measure s' < measure s) fun _ _ => True) (a : α) (s : σ) :
    Loops more step a s (repeatWhile measure more step a s) := by
  fun_induction repeatWhile measure more step a s with
  | case1 a s hm b s' hs _ ih => exact .round hm hs ih
  | case2 a s hm b s' hs hlt => exact absurd ((hstep a s hm).of_ok hs) hlt
  | case3 a s hm e s' hs => exact .failed hm hs
  | case4 a s hm => exact .done (by simpa using hm)

/-- Going on over `n` tokens or more leads from one cursor to the other. -/
def Cursor.Onward (n : Nat) (c c' : Cursor) : Prop :=
  ∃ ts, c.Moves ts c' ∧ n ≤ ts.length

/-- A cursor that has gone on by `n` tokens or more and still stands at one of the tokens. -/
structure Cursor.GoesOn (tokens : List Token) (n : Nat) (c c' : Cursor) : Prop where
  index_le : c.index + n ≤ c'.index
  standsIn : c'.StandsIn tokens

/-- However the computation ends, it has moved the cursor on or left it where it was; if it ends
well, it has moved it on over `n` tokens or more. -/
def Advances (cursor : σ → Cursor) (n : Nat) (m : EStateM ε σ α) (s : σ) : Prop :=
  Ends m s (fun _ s' => (cursor s).Onward n (cursor s')) fun _ s' => (cursor s).Onward 0 (cursor s')

namespace Cursor.Onward

variable {c c' c'' : Cursor} {m n : Nat}

theorem refl (c : Cursor) : Onward 0 c c :=
  ⟨[], .refl c, Nat.le_refl 0⟩

theorem trans (h : Onward m c c') (h' : Onward n c' c'') : Onward (m + n) c c'' := by
  obtain ⟨ts, hts, hm⟩ := h
  obtain ⟨us, hus, hn⟩ := h'
  refine ⟨ts ++ us, hts.trans hus, ?_⟩
  rw [List.length_append]
  exact Nat.add_le_add hm hn

theorem weaken (h : Onward m c c') (hn : n ≤ m) : Onward n c c' := by
  obtain ⟨ts, hts, hm⟩ := h
  exact ⟨ts, hts, Nat.le_trans hn hm⟩

theorem advance (c : Cursor) (count : Nat) : Onward 0 c (c.advance count) :=
  ⟨_, c.moves_advance_take count, Nat.zero_le _⟩

theorem goesOn (h : Onward n c c') (hc : c.StandsIn tokens) : c.GoesOn tokens n c' := by
  obtain ⟨ts, hts, hn⟩ := h
  constructor
  · rw [hts.index]
    exact Nat.add_le_add_left hn c.index
  · exact hc.moves hts

theorem length_lt (h : Onward (n + 1) c c') : c'.rest.length < c.rest.length := by
  obtain ⟨ts, hts, hn⟩ := h
  have hlength := hts.length
  omega

end Cursor.Onward

namespace Advances

variable {cursor : σ → Cursor} {m n : Nat} {x : EStateM ε σ α} {f : α → EStateM ε σ β} {s : σ}

theorem pure (a : α) : Advances cursor 0 (Pure.pure a : EStateM ε σ α) s :=
  .refl (cursor s)

theorem weaken (h : Advances cursor m x s) (hn : n ≤ m) : Advances cursor n x s :=
  h.imp fun _ _ hx => hx.weaken hn

theorem bind (h : Advances cursor m x s) (hf : ∀ a s', Advances cursor n (f a) s') :
    Advances cursor (m + n) (x >>= f) s := by
  apply Ends.bind (M := fun _ s' => (cursor s).Onward m (cursor s')) h
  intro a s' hs
  exact (hf a s').mono (fun _ _ => hs.trans) fun _ _ he => (hs.trans he).weaken (Nat.zero_le _)

theorem andThen (h : Advances cursor 0 x s) (hf : ∀ a s', Advances cursor n (f a) s') :
    Advances cursor n (x >>= f) s := by
  rw [← Nat.zero_add n]
  exact h.bind hf

theorem get_bind {f : σ → EStateM ε σ α} (h : Advances cursor n (f s) s) :
    Advances cursor n (get >>= f) s := h

theorem goesOn (h : Advances cursor n x s) (hs : (cursor s).StandsIn tokens) :
    Ends x s (fun _ s' => (cursor s).GoesOn tokens n (cursor s'))
      fun _ s' => (cursor s).GoesOn tokens 0 (cursor s') :=
  h.mono (fun _ _ h => h.goesOn hs) fun _ _ h => h.goesOn hs

theorem loops {more : σ → Bool} {step : α → EStateM ε σ α}
    (hstep : ∀ a s, more s = true → Advances cursor 1 (step a) s) (a : α) (s : σ) :
    Loops more step a s (repeatWhile (fun s => (cursor s).rest.length) more step a s) := by
  apply loops_repeatWhile
  intro a s hm
  exact (hstep a s hm).mono (fun _ _ hs => hs.length_lt) fun _ _ _ => trivial

theorem repeatWhile {more : σ → Bool} {step : α → EStateM ε σ α}
    (hstep : ∀ a s, more s = true → Advances cursor 1 (step a) s) (a : α) (s : σ) :
    Advances cursor 0 (repeatWhile (fun s => (cursor s).rest.length) more step a) s := by
  refine (Ends.repeatWhile (I := fun _ s' => (cursor s).Onward 0 (cursor s')) ?_ (.refl _)).imp
    fun _ _ h => h.1
  intro a s₁ h₁ hm
  refine (hstep a s₁ hm).mono (fun _ _ h => ⟨?_, h.length_lt⟩) fun _ _ h => h₁.trans h
  exact (h₁.trans h).weaken (Nat.zero_le _)

end Advances

abbrev CursorM.Advances (n : Nat) (m : CursorM α) (c : Cursor) : Prop :=
  ResourceScript.Advances id n m c

namespace CursorM

variable {c : Cursor} {k : LexemeKind} {n : Nat} {m : CursorM α}

theorem advances_peek (c : Cursor) : Advances 0 peek c :=
  .refl c

theorem advances_expects (es : List Expectation) (c : Cursor) : Advances 0 (expects es) c :=
  .refl c

theorem advances_fail (f : Failure) (n : Nat) (c : Cursor) : Advances n (fail f : CursorM α) c :=
  .refl c

theorem advances_ofExcept (e : Except Failure α) (c : Cursor) : Advances 0 (ofExcept e) c := by
  cases e <;> exact .refl c

theorem advances_read (c : Cursor) : Advances 0 read c :=
  .advance c 1

theorem advances_read_token (h : c.peek.kind ≠ .endOfInput) : Advances 1 read c :=
  ⟨[c.peek], Cursor.moves_peek h, Nat.le_refl 1⟩

theorem advances_ensure {es : List Expectation} (hs : ∀ e ∈ es, Expectation.IsSolid e)
    (c : Cursor) : Advances es.length (ensure es) c := by
  refine ends_ensure hs ?_ fun _ _ _ => .refl c
  intro ts us c' hmet hm
  exact ⟨ts, hm, Nat.le_of_eq hmet.length_eq⟩

theorem advances_ensureKind (hk : k ≠ .endOfInput) (c : Cursor) : Advances 1 (ensureKind k) c := by
  refine ends_ensureKind hk ?_ fun _ _ _ => .refl c
  intro t c' _ hm
  exact ⟨[t], hm, Nat.le_refl 1⟩

end CursorM

theorem Header.advances_contents (c : Cursor) : CursorM.Advances 0 contents c :=
  (ends_contents (Q := fun _ c' => c.Onward 0 c')).imp
    fun _ _ ⟨ts, hm, _⟩ => ⟨ts, hm, Nat.zero_le _⟩

theorem Header.advances_read (c : Cursor) : CursorM.Advances 3 read c := by
  have hs : ∀ e ∈ [Cursor.newWord, .ofKind .leftParen], Expectation.IsSolid e := by
    simp [Expectation.IsSolid, Cursor.newWord, Expectation.word, Expectation.ofKind]
  apply Advances.bind (m := 2) (n := 1) (CursorM.advances_ensure hs c)
  intro _ c₁
  apply Advances.andThen (advances_contents c₁)
  intro header c₂
  exact (CursorM.advances_ensureKind (by decide) c₂).bind fun _ c₃ => .pure header

namespace FieldScope

variable {s : FieldScope} {slot : Slot} {type : ValueType}

theorem advances_integer (c : Cursor) : CursorM.Advances 0 (s.integer slot type) c := by
  apply Advances.andThen (CursorM.advances_peek c)
  intro token c₁
  split
  · exact (CursorM.advances_read c₁).andThen fun _ c₂ => CursorM.advances_ofExcept _ c₂
  · apply Advances.andThen (CursorM.advances_read c₁)
    intro _ c₂
    apply Advances.andThen (CursorM.advances_ofExcept _ c₂)
    intro v c₃
    cases v with
    | integer n => exact CursorM.advances_ofExcept _ c₃
    | text str => exact CursorM.advances_fail _ 0 c₃
  · exact CursorM.advances_fail _ 0 c₁

theorem advances_resourceId (c : Cursor) : CursorM.Advances 0 (s.resourceId type) c := by
  apply Advances.andThen (CursorM.advances_peek c)
  intro token c₁
  split
  · exact (CursorM.advances_read c₁).andThen fun _ c₂ => CursorM.advances_ofExcept _ c₂
  · exact CursorM.advances_fail _ 0 c₁

theorem advances_integers (count : Nat) (c : Cursor) :
    CursorM.Advances 0 (s.integers type count) c := by
  induction count generalizing c with
  | zero => exact .pure []
  | succ count ih =>
    apply Advances.andThen (CursorM.advances_read c)
    intro token c₁
    apply Advances.andThen (CursorM.advances_ofExcept _ c₁)
    intro n c₂
    exact (ih c₂).andThen fun ns _ => .pure _

theorem advances_rectangle (c : Cursor) : CursorM.Advances 0 s.rectangle c := by
  apply Advances.andThen (CursorM.advances_expects _ c)
  intro found c₁
  split
  · exact advances_integers 4 c₁
  · exact (CursorM.advances_peek c₁).andThen fun _ c₂ => CursorM.advances_fail _ 0 c₂

theorem advances_stringToken (c : Cursor) : CursorM.Advances 0 s.stringToken c := by
  apply Advances.andThen (CursorM.advances_peek c)
  intro token c₁
  split
  · exact (CursorM.advances_read c₁).andThen fun _ _ => .pure _
  · exact CursorM.advances_fail _ 0 c₁

theorem advances_string (c : Cursor) : CursorM.Advances 0 (s.string slot) c := by
  apply Advances.andThen (CursorM.advances_peek c)
  intro token c₁
  split
  · exact (CursorM.advances_read c₁).andThen fun _ c₂ => CursorM.advances_ofExcept _ c₂
  · apply Advances.andThen (CursorM.advances_read c₁)
    intro _ c₂
    apply Advances.andThen (CursorM.advances_ofExcept _ c₂)
    intro v c₃
    cases v with
    | text value => exact CursorM.advances_ofExcept _ c₃
    | integer n => exact CursorM.advances_fail _ 0 c₃
  · exact CursorM.advances_fail _ 0 c₁

theorem advances_maskTerm (c : Cursor) : CursorM.Advances 1 (maskTerm slot) c := by
  have hread {lexeme : Lexeme} (hl : c.peek.lexeme = lexeme) (hne : lexeme ≠ .endOfInput) :
      CursorM.Advances 1 CursorM.read c := ⟨[c.peek], moves_of_lexeme hl hne, Nat.le_refl 1⟩
  apply CursorM.ends_peek_bind
  split
  case h_1 n hl => exact Advances.bind (hread hl nofun) fun _ _ => .pure n
  case h_2 hl =>
    apply Advances.bind (n := 0) (hread hl nofun)
    intro _ c₁
    apply Advances.andThen (CursorM.advances_ofExcept _ c₁)
    intro v c₂
    cases v with
    | integer n => exact .pure n
    | text str => exact CursorM.advances_fail _ 0 c₂
  case h_3 => exact CursorM.advances_fail _ 1 c

end FieldScope

abbrev Compilation.Advances (n : Nat) (m : Compilation α) (s : Session) : Prop :=
  ResourceScript.Advances Session.cursor n m s

namespace Compilation

variable {n : Nat} {s : Session}

theorem advances_reader {m : CursorM α} (h : CursorM.Advances n m s.cursor) :
    Advances n (liftM m : Compilation α) s :=
  ends_onCursor h

theorem advances_ensureKind {k : LexemeKind} (hk : k ≠ .endOfInput) (s : Session) :
    Advances 1 (liftM (CursorM.ensureKind k) : Compilation Unit) s :=
  advances_reader (CursorM.advances_ensureKind hk s.cursor)

theorem advances_ofExcept (e : Except Failure α) (s : Session) : Advances 0 (ofExcept e) s := by
  cases e <;> exact .refl s.cursor

theorem advances_throw (f : Failure) (n : Nat) (s : Session) :
    Advances n (throw f : Compilation α) s :=
  .refl s.cursor

theorem advances_note (line : Text) (s : Session) : Advances 0 (note line) s :=
  .refl s.cursor

theorem advances_locating {m : Compilation α} (position : Position) (h : Advances n m s) :
    Advances n (locating position m) s :=
  ends_locating h

end Compilation

namespace Assignment

open FieldScope Compilation

variable {a : Assignment} {slot : Slot}

theorem advances_joinTerm {c : Cursor} (hbar : c.expects [.ofKind .pipe] = true) (mask : Nat) :
    CursorM.Advances 2 (joinTerm slot mask) c := by
  rw [Cursor.expects_single, Expectation.isMetBy_ofKind] at hbar
  apply Advances.bind (n := 1) (CursorM.advances_read_token (by rw [hbar]; decide))
  intro _ c₁
  exact (advances_maskTerm c₁).bind fun _ _ => .pure _

theorem advances_round {c : Cursor} (hbar : c.expects [.ofKind .pipe] = true) (mask : Nat) :
    CursorM.Advances 1 (joinTerm slot mask) c :=
  (advances_joinTerm hbar mask).weaken (Nat.le_succ 1)

theorem advances_maskTerms (c : Cursor) : CursorM.Advances 0 (a.maskTerms slot) c := by
  apply Advances.andThen (CursorM.advances_expects _ c)
  intro ended c₁
  split
  -- A mask may be empty, so that its value need not move the cursor at all.
  · exact .pure 0
  · apply Advances.andThen ((advances_maskTerm c₁).weaken (Nat.zero_le 1))
    intro first c₂
    apply Advances.andThen
      (Advances.repeatWhile (fun mask c hbar => advances_round hbar mask) (maskBits first) c₂)
    intro mask c₃
    apply Advances.andThen (CursorM.advances_expects _ c₃)
    intro ended c₄
    split
    · exact .pure mask
    · exact (CursorM.advances_peek c₄).andThen fun _ c₅ => CursorM.advances_fail _ 0 c₅

theorem advances_literal (type : ValueType) (c : Cursor) :
    CursorM.Advances 0 (a.literal slot type) c := by
  have hstring (c : Cursor) : CursorM.Advances 0 (do
      let b ← a.scope.string slot
      let b ← CursorM.ofExcept (a.fit type b)
      return Value.bytes b) c :=
    (advances_string c).andThen fun _ c₁ =>
      (CursorM.advances_ofExcept _ c₁).andThen fun _ _ => .pure _
  cases type with
  | integer t => exact (advances_integer c).andThen fun _ _ => .pure _
  | pascal => exact hstring c
  | terminated => exact hstring c
  | fixed size => exact hstring c
  | rectangle => exact (advances_rectangle c).andThen fun _ _ => .pure _
  | raw => exact (CursorM.advances_peek c).andThen fun _ c₁ => CursorM.advances_fail _ 0 c₁
  | unknown => exact (CursorM.advances_peek c).andThen fun _ c₁ => CursorM.advances_fail _ 0 c₁

theorem advances_reference (c : Cursor) : CursorM.Advances 0 (a.reference slot) c := by
  unfold reference
  simp only
  split
  · exact (advances_resourceId c).andThen fun _ _ => .pure _
  · exact CursorM.advances_fail _ 0 c

theorem advances_image (label : String) (c : Cursor) : CursorM.Advances 0 (a.image label) c :=
  (advances_stringToken c).andThen fun _ c₁ => CursorM.advances_fail _ 0 c₁

theorem advances_bitmask (c : Cursor) : CursorM.Advances 0 (a.bitmask slot) c := by
  unfold bitmask
  simp only
  split
  case isTrue => exact Ends.bind (CursorM.ends_fail (P := fun _ _ => False) (.refl c)) nofun
  case isFalse =>
    split
    case h_1 => exact CursorM.advances_fail _ 0 c
    case h_2 => exact (advances_maskTerms c).andThen fun _ _ => .pure _

theorem advances_importFile (token : Token) (name : Text) (s : Session) :
    Compilation.Advances 0 (a.importFile token name) s := by
  apply Advances.andThen (advances_locating _ (advances_ofExcept _ s))
  intro imported s₁
  exact (advances_note _ s₁).andThen fun _ _ => .pure _

theorem advances_file (s : Session) : Compilation.Advances 0 (a.file slot) s := by
  apply Advances.andThen (advances_reader (CursorM.advances_expects _ s.cursor))
  intro imported s₁
  split
  case isTrue =>
    apply Advances.andThen (advances_reader (CursorM.advances_read s₁.cursor))
    intro _ s₂
    apply Advances.andThen (advances_reader (advances_stringToken s₂.cursor))
    intro named s₃
    apply Advances.andThen (advances_importFile named.1 named.2 s₃)
    exact fun data => advances_ofExcept (a.hold slot data)
  case isFalse =>
    apply Advances.andThen (advances_reader (advances_stringToken s₁.cursor))
    intro named s₂
    apply Advances.andThen (advances_ofExcept (a.scope.encodeText named.2 named.1) s₂)
    exact fun data => advances_ofExcept (a.hold slot data)

theorem advances_value (d : Directive) (s : Session) :
    Compilation.Advances 0 (a.value slot d) s := by
  cases d with
  | reference => exact advances_reader (advances_reference s.cursor)
  | file => exact advances_file s
  | picture => exact advances_reader (advances_image _ s.cursor)
  | sprite => exact advances_reader (advances_image _ s.cursor)
  | colorIcon => exact advances_reader (advances_image _ s.cursor)
  | bitmask => exact advances_reader (advances_bitmask s.cursor)
  | positional => exact advances_reader (advances_literal _ s.cursor)

theorem advances_follow (d : Directive) (draft : Draft) (s : Session) :
    Compilation.Advances 0 (a.follow draft d) s := by
  unfold follow
  induction d.slots a.field generalizing draft s with
  | nil => exact .pure draft
  | cons slot slots ih =>
    rw [List.foldlM_cons]
    refine Advances.andThen ?_ ih
    exact (advances_value d s).andThen fun _ s₁ => advances_ofExcept _ s₁

theorem advances_run (draft : Draft) (s : Session) : Compilation.Advances 0 (a.run draft) s := by
  apply Advances.andThen (advances_reader (CursorM.advances_peek s.cursor))
  intro next s₁
  apply Advances.andThen (advances_ofExcept _ s₁)
  intro directive s₂
  apply Advances.andThen (advances_note _ s₂)
  intro _ s₃
  exact advances_locating _ (advances_follow directive draft s₃)

end Assignment

namespace Grammar

variable {settings : Settings} {t : TypeTemplate} {ts cut missing : List Token}

theorem Declaration.ne_rightBrace_of_cut
    (h : Declaration settings t (cut ++ missing) header values) (hmissing : missing ≠ []) :
    ∀ token ∈ cut, token.kind ≠ .rightBrace := by
  obtain ⟨front, closing, hts, -, hfront⟩ := h.exists_closing
  obtain ⟨init, last, rfl⟩ := (List.eq_nil_or_concat missing).resolve_left hmissing
  rw [List.concat_eq_append, ← List.append_assoc] at hts
  obtain ⟨rfl, -⟩ := List.append_inj' hts rfl
  intro token htoken
  exact hfront token (List.mem_append_left init htoken)

theorem Script.getLast? {taken : List Int} (h : Script settings t taken ts resources)
    (hlast : ts.getLast? = some token) : token.kind = .rightBrace := by
  induction h with
  | nil => cases hlast
  | @cons ts _ _ _ us _ _ hd _ _ ih =>
    rw [List.getLast?_append] at hlast
    cases hus : us.getLast? with
    | some last =>
      rw [hus, Option.some_or] at hlast
      exact ih (hus.trans hlast)
    | none =>
      obtain ⟨front, closing, rfl, hclosing, -⟩ := hd.exists_closing
      rw [hus, Option.none_or, List.getLast?_concat] at hlast
      obtain rfl := Option.some.inj hlast
      exact hclosing

end Grammar

namespace Declaration

open Compilation

variable {settings : Settings} {t : TypeTemplate} {s : Session}

theorem advances_start (header : Header) (position : Position) (s : Session) :
    Compilation.Advances 0 (start header position) s := by
  apply Advances.get_bind
  apply Advances.andThen (advances_ofExcept _ s)
  intro started s₁
  exact .refl s₁.cursor

theorem advances_assignment (d : Draft) (s : Session) :
    Compilation.Advances 3 (assignment settings d) s := by
  apply Compilation.ends_peek_bind
  split
  case isTrue => exact advances_throw _ 3 s
  case isFalse hk =>
    have hne : s.cursor.peek.kind ≠ .endOfInput := by
      rw [not_not.mp hk]
      decide
    apply Advances.bind (m := 1) (n := 2) (advances_reader (CursorM.advances_read_token hne))
    intro _ s₁
    apply Advances.get_bind
    apply Advances.andThen (advances_ofExcept _ s₁)
    intro type s₂
    apply Advances.andThen (advances_ofExcept _ s₂)
    intro field s₃
    apply Advances.bind (m := 1) (n := 1) (advances_ensureKind (by decide) s₃)
    intro _ s₄
    apply Advances.andThen (Assignment.advances_run d s₄)
    intro d s₅
    exact (advances_ensureKind (by decide) s₅).bind (n := 0) fun _ _ => .pure d

theorem advances_body (d : Draft) (s : Session) :
    Compilation.Advances 2 (body settings d) s := by
  apply Advances.bind (m := 1) (n := 1) (advances_ensureKind (by decide) s)
  intro _ s₁
  -- The condition holds at the end of input as well. There a round finds no name and fails.
  have hround (d : Draft) (s : Session) (_ : s.cursor.expects [.anythingBut .rightBrace] = true) :
      Compilation.Advances 1 (assignment settings d) s :=
    (advances_assignment d s).weaken (by decide)
  apply Advances.andThen (Advances.repeatWhile hround d s₁)
  intro d s₂
  exact (advances_ensureKind (by decide) s₂).bind (n := 0) fun _ _ => .pure d

theorem advances_read (s : Session) : Compilation.Advances 5 (read settings) s := by
  apply Compilation.ends_peek_bind
  apply Advances.bind (m := 3) (n := 2) (advances_reader (Header.advances_read s.cursor))
  intro header s₁
  apply Advances.andThen (advances_start header _ s₁)
  intro draft s₂
  apply Advances.bind (m := 2) (n := 0) (advances_body draft s₂)
  intro draft s₃
  apply Advances.andThen (advances_ofExcept _ s₃)
  intro resource s₄
  exact (advances_note _ s₄).andThen fun _ _ => .pure resource

theorem advances_readNext (resources : List Resource) (s : Session) :
    Compilation.Advances 5 (readNext settings resources) s := by
  apply Advances.get_bind
  simp only
  split
  case isTrue => exact advances_throw _ 5 s
  case isFalse => exact (advances_read s).bind (n := 0) fun _ _ => .pure _

theorem advances_readAll (s : Session) : Compilation.Advances 0 (readAll settings) s :=
  Advances.repeatWhile
    (fun resources s _ => (advances_readNext resources s).weaken (by decide)) [] s

theorem read_fails (ht : s.registry.active? = some t)
    (hrest : ∀ token ∈ s.cursor.rest, token.kind ≠ .rightBrace) :
    ∃ e s', read settings s = .error e s' := by
  have hs : Ready s t s.cursor.stream := ⟨ht, List.suffix_refl _⟩
  cases hread : read settings s with
  | error e s' => exact ⟨e, s', rfl⟩
  | ok x s' =>
    obtain ⟨ts, header, values, id, hm, -, hd, -⟩ := (ends_read hs).of_ok hread
    obtain ⟨front, closing, rfl, hclosing, -⟩ := hd.exists_closing
    have hmem : closing ∈ s.cursor.rest := by
      rw [hm.rest, List.append_assoc]
      exact List.mem_append_right front List.mem_cons_self
    exact absurd hclosing (hrest closing hmem)

theorem readAll_fails (ht : s.registry.active? = some t)
    (hend : ∀ token ∈ s.cursor.rest, token.kind ≠ .endOfInput)
    (hlast : s.cursor.rest.getLast? = some token) (hk : token.kind ≠ .rightBrace) :
    ∃ e s', readAll settings s = .error e s' := by
  have hs : Ready s t s.cursor.stream := ⟨ht, List.suffix_refl _⟩
  cases hread : readAll settings s with
  | error e s' => exact ⟨e, s', rfl⟩
  | ok resources s' =>
    obtain ⟨ts, hm, hfinished, hscript, -⟩ := (ends_readAll hs).of_ok hread
    rw [← hm.eq_rest hend hfinished] at hlast
    exact absurd (hscript.getLast? hlast) hk

theorem readAll_fails_of_cut {before cut : List Token} (ht : s.registry.active? = some t)
    (hrest : s.cursor.rest = before ++ cut)
    (hend : ∀ token ∈ before ++ cut, token.kind ≠ .endOfInput) (hne : cut ≠ [])
    (hcut : ∀ token ∈ cut, token.kind ≠ .rightBrace) :
    ∃ e s', readAll settings s = .error e s' := by
  have hlast : s.cursor.rest.getLast? = some (cut.getLast hne) := by
    rw [hrest, List.getLast?_append, List.getLast?_eq_some_getLast hne, Option.some_or]
  rw [← hrest] at hend
  exact readAll_fails ht hend hlast (hcut _ (List.getLast_mem hne))

theorem ne_rightBrace_of_cut (ht : s.registry.active? = some t) (hread : read settings s = .ok x s')
    (hm : s.cursor.Moves (cut ++ missing) s'.cursor) (hmissing : missing ≠ []) :
    ∀ token ∈ cut, token.kind ≠ .rightBrace := by
  have hs : Ready s t s.cursor.stream := ⟨ht, List.suffix_refl _⟩
  obtain ⟨ts, header, values, id, hts, -, hd, -⟩ := (ends_read hs).of_ok hread
  have hrest : ts ++ s'.cursor.rest = cut ++ missing ++ s'.cursor.rest :=
    hts.rest.symm.trans hm.rest
  obtain rfl := List.append_cancel_right hrest
  exact hd.ne_rightBrace_of_cut hmissing

theorem ends_readAll_at_last (ht : s.registry.active? = some t) (hin : s.cursor.StandsIn tokens)
    (hend : ∀ token ∈ tokens.dropLast, token.kind ≠ .endOfInput) :
    Ends (readAll settings) s
      (fun _ s' => s.cursor.GoesOn tokens 0 s'.cursor ∧ s'.cursor.index = tokens.length - 1)
      (fun _ s' => s.cursor.GoesOn tokens 0 s'.cursor) := by
  have hs : Ready s t s.cursor.stream := ⟨ht, List.suffix_refl _⟩
  have hgoes : Ends (readAll settings) s _ _ := (advances_readAll s).goesOn hin
  unfold Ends at hgoes ⊢
  cases hread : readAll settings s with
  | error e s' => simpa only [hread] using hgoes
  | ok resources s' =>
    rw [hread] at hgoes
    obtain ⟨ts, hm, hfinished, -⟩ := (ends_readAll hs).of_ok hread
    refine ⟨hgoes, ?_⟩
    have hts : ts = s.cursor.rest :=
      hm.eq_rest (fun token htoken => hend token (hin.rest_subset htoken)) hfinished
    have hlength := hin.length
    rw [hm.index, hts]
    omega

/-- Wherever a cursor stands in its tokens, reading goes on from there until the conditions of its
loops end it: the rounds over declarations, over assignments and over the terms of a mask consume
five, three and two tokens at least, the cursor never goes back or leaves the tokens, and a
declaration that is cut off by the end of input is an error, as is a script that ends in one. -/
theorem readAll_progress {tokens : List Token} {start c : Cursor} {r : Registry} {t : TypeTemplate}
    (hstart : Cursor.ofTokens tokens = .ok start)
    (hend : ∀ token ∈ tokens.dropLast, token.kind ≠ .endOfInput) (hc : start.Reaches c)
    (ht : r.active? = some t) (settings : Settings) (journal : List Text) :
    let s : Session := { cursor := c, registry := r, journal }
    (∀ s₁, Loops (!·.cursor.isFinished) (readNext settings) [] s₁ (readAll settings s₁)) ∧
    (∀ d s₁, Loops (·.cursor.expects [.anythingBut .rightBrace]) (assignment settings) d s₁
      (repeatWhile Session.remaining (·.cursor.expects [.anythingBut .rightBrace])
        (assignment settings) d s₁)) ∧
    (∀ slot mask c₁, Loops (·.expects [.ofKind .pipe]) (Assignment.joinTerm slot) mask c₁
      (repeatWhile (fun c => c.rest.length) (·.expects [.ofKind .pipe]) (Assignment.joinTerm slot)
        mask c₁)) ∧
    Ends (readAll settings) s
      (fun _ s' => c.GoesOn tokens 0 s'.cursor ∧ s'.cursor.index = tokens.length - 1)
      (fun _ s' => c.GoesOn tokens 0 s'.cursor) ∧
    Ends (read settings) s (fun _ s' => c.GoesOn tokens 5 s'.cursor)
      (fun _ s' => c.GoesOn tokens 0 s'.cursor) ∧
    (∀ d, Ends (assignment settings d) s (fun _ s' => c.GoesOn tokens 3 s'.cursor)
      fun _ s' => c.GoesOn tokens 0 s'.cursor) ∧
    (∀ slot mask, c.expects [.ofKind .pipe] = true → Ends (Assignment.joinTerm slot mask) c
      (fun _ c' => c.GoesOn tokens 2 c') fun _ c' => c.GoesOn tokens 0 c') ∧
    (∀ c', c.Reaches c' → c.GoesOn tokens 0 c') ∧
    (∀ s₁ : Session, s₁.registry.active?.isSome →
      (∀ token ∈ s₁.cursor.rest, token.kind ≠ .rightBrace) →
        ∃ e s₂, read settings s₁ = .error e s₂) ∧
    ∀ x s', read settings s = .ok x s' → ∀ cut missing, c.Moves (cut ++ missing) s'.cursor →
      missing ≠ [] → ∀ s₁ : Session, s₁.registry.active?.isSome →
        (s₁.cursor.rest = cut → ∃ e s₂, read settings s₁ = .error e s₂) ∧
        ∀ before, (∀ token ∈ before, token.kind ≠ .endOfInput) → s₁.cursor.rest = before ++ cut →
          cut ≠ [] → ∃ e s₂, readAll settings s₁ = .error e s₂ := by
  intro s
  have hin := (Cursor.standsIn_of_ofTokens hstart).reaches hc
  have hs : s.registry.active? = some t := ht
  refine ⟨?_, ?_, ?_, ends_readAll_at_last hs hin hend, (advances_read s).goesOn hin,
    fun d => (advances_assignment d s).goesOn hin, ?_, ?_, ?_, ?_⟩
  · intro s
    exact Advances.loops
      (fun resources s _ => (advances_readNext resources s).weaken (by decide)) [] s
  · intro d s
    exact Advances.loops (fun d s _ => (advances_assignment d s).weaken (by decide)) d s
  · intro slot mask c
    exact Advances.loops (fun mask c hbar => Assignment.advances_round hbar mask) mask c
  · intro slot mask hbar
    exact (Assignment.advances_joinTerm hbar mask).goesOn hin
  · intro c' hc'
    obtain ⟨n, rfl⟩ := hc'.exists_advance
    exact (Cursor.Onward.advance c n).goesOn hin
  · intro s₁ ht₁ hrest
    obtain ⟨t₁, ht₁⟩ := Option.isSome_iff_exists.mp ht₁
    exact read_fails ht₁ hrest
  · intro x s' hread cut missing hm hmissing s₁ ht₁
    obtain ⟨t₁, ht₁⟩ := Option.isSome_iff_exists.mp ht₁
    have hcut := ne_rightBrace_of_cut hs hread hm hmissing
    refine ⟨fun hrest => read_fails ht₁ (hrest ▸ hcut), ?_⟩
    intro before hbefore hrest hne
    refine readAll_fails_of_cut ht₁ hrest ?_ hne hcut
    rw [List.forall_mem_append]
    refine ⟨hbefore, fun token htoken => hend token (hin.rest_subset ?_)⟩
    have hmoved : c.rest = cut ++ missing ++ s'.cursor.rest := hm.rest
    rw [hmoved]
    exact List.mem_append_left _ (List.mem_append_left _ htoken)

theorem readAll_progress_sample :
    Cursor.ofTokens (Sample.declaration ++ [Sample.tokenOf .endOfInput]) =
      .ok Sample.session.cursor ∧
    ∃ x s', read Sample.settings Sample.session = .ok x s' ∧ 5 ≤ s'.cursor.index ∧
      ∀ n < Sample.declaration.length, ∀ s : Session, s.registry = Sample.registry →
        s.cursor.rest = Sample.declaration.take n →
          ∃ e s', read Sample.settings s = .error e s' := by
  obtain ⟨journal, hread⟩ := read_of_moves (s := Sample.session) rfl Sample.declaration_spells
    Sample.session.cursor.moves_rest ⟨rfl, by decide⟩
  have hstart : Cursor.ofTokens (Sample.declaration ++ [Sample.tokenOf .endOfInput]) =
      .ok Sample.session.cursor := rfl
  obtain ⟨-, -, -, -, hreads, -, -, -, -, hcut⟩ :=
    readAll_progress (t := Sample.note) hstart (by decide)
    .start (r := Sample.registry) rfl Sample.settings []
  refine ⟨hstart, _, _, hread, (hreads.of_ok hread).index_le, ?_⟩
  intro n hn s hregistry hrest
  have hm : Sample.session.cursor.Moves (Sample.declaration.take n ++ Sample.declaration.drop n)
      (Sample.session.cursor.advance Sample.session.cursor.rest.length) := by
    rw [List.take_append_drop]
    exact Sample.session.cursor.moves_rest
  have hmissing : Sample.declaration.drop n ≠ [] := by
    rwa [ne_eq, List.drop_eq_nil_iff, not_le]
  exact (hcut _ _ hread _ _ hm hmissing s (hregistry ▸ rfl)).1 hrest

end Declaration

end ResourceScript

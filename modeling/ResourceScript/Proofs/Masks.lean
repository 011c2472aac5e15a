import Mathlib.Data.Int.Bitwise
import ResourceScript.Proofs.Calls
import ResourceScript.Proofs.Directives

namespace ResourceScript

variable {w : Width} {ns ns' : List Int} {slot : Slot} {c c' : Cursor} {e : Failure}

theorem testBit_emod_two_pow (n : Int) (b j : Nat) :
    (n % (2 ^ b : Nat)).toNat.testBit j = (decide (j < b) && n.testBit j) := by
  have hpos : 0 < 2 ^ b := Nat.two_pow_pos b
  cases n with
  | ofNat m =>
    have hm : (Int.ofNat m % (2 ^ b : Nat)).toNat = m % 2 ^ b := rfl
    rw [hm, Nat.testBit_mod_two_pow]
    rfl
  | negSucc m =>
    have hlt : m % 2 ^ b < 2 ^ b := Nat.mod_lt m hpos
    have hm : (Int.negSucc m % (2 ^ b : Nat)).toNat = 2 ^ b - (m % 2 ^ b + 1) := by
      rw [Int.negSucc_emod m (by exact_mod_cast hpos)]
      omega
    rw [hm, Nat.testBit_two_pow_sub_succ hlt, Nat.testBit_mod_two_pow]
    cases decide (j < b) <;> simp [Int.testBit]

namespace Grammar

/-- The integers, joined bit by bit in two's complement. -/
def joined (ns : List Int) : Int :=
  ns.foldl Int.lor 0

/-- What is left of the integers when each of them is cut to a width. -/
def residues (w : Width) (ns : List Int) : Set Int :=
  {r | ∃ n ∈ ns, n % w.count = r}

theorem testBit_joined (ns : List Int) (j : Nat) :
    (joined ns).testBit j = ns.any (·.testBit j) := by
  have hfold (m : Int) : (ns.foldl Int.lor m).testBit j =
      (m.testBit j || ns.any (·.testBit j)) := by
    induction ns generalizing m with
    | nil => simp
    | cons n ns ih => rw [List.foldl_cons, ih, Int.testBit_lor, List.any_cons, Bool.or_assoc]
  rw [joined, hfold]
  simp [Int.testBit]

theorem testBit_maskBits (n : Int) (j : Nat) :
    (maskBits n).testBit j = (decide (j < 64) && n.testBit j) :=
  testBit_emod_two_pow n 64 j

theorem testBit_maskOf (ns : List Int) (j : Nat) :
    (maskOf ns).testBit j = (decide (j < 64) && ns.any (·.testBit j)) := by
  have hfold (m : Nat) : (ns.foldl (fun mask n => mask ||| maskBits n) m).testBit j =
      (m.testBit j || (decide (j < 64) && ns.any (·.testBit j))) := by
    induction ns generalizing m with
    | nil => simp
    | cons n ns ih =>
      rw [List.foldl_cons, ih, Nat.testBit_or, testBit_maskBits, List.any_cons, Bool.or_assoc,
        Bool.and_or_distrib_left]
  rw [maskOf, hfold]
  simp

theorem testBit_joined_emod (ns : List Int) (j : Nat) :
    (joined ns % w.count).toNat.testBit j = (decide (j < w.bits) && ns.any (·.testBit j)) := by
  rw [← testBit_joined]
  exact testBit_emod_two_pow _ w.bits j

theorem maskOf_mod (w : Width) (ns : List Int) :
    maskOf ns % w.count = (joined ns % w.count).toNat := by
  have hwidth : w.bits ≤ 64 := by cases w <;> decide
  apply Nat.eq_of_testBit_eq
  intro j
  have hmod : (maskOf ns % w.count).testBit j = (decide (j < w.bits) && (maskOf ns).testBit j) :=
    Nat.testBit_mod_two_pow (maskOf ns) w.bits j
  rw [hmod, testBit_maskOf, testBit_joined_emod]
  by_cases hj : j < w.bits
  · have h64 : j < 64 := Nat.lt_of_lt_of_le hj hwidth
    simp [h64]
  · simp [hj]

theorem testBit_joined_emod_iff (ns : List Int) (j : Nat) :
    (joined ns % w.count).toNat.testBit j = true ↔
      ∃ r ∈ residues w ns, r.toNat.testBit j = true := by
  have hbit (n : Int) : (n % w.count).toNat.testBit j = (decide (j < w.bits) && n.testBit j) :=
    testBit_emod_two_pow n w.bits j
  rw [testBit_joined_emod, Bool.and_eq_true, List.any_eq_true]
  constructor
  · rintro ⟨hj, n, hn, ht⟩
    refine ⟨n % w.count, ⟨n, hn, rfl⟩, ?_⟩
    rw [hbit, hj, ht]
    rfl
  · rintro ⟨_, ⟨n, hn, rfl⟩, ht⟩
    rw [hbit, Bool.and_eq_true] at ht
    exact ⟨ht.1, n, hn, ht.2⟩

theorem joined_emod_congr (h : residues w ns = residues w ns') :
    (joined ns % w.count).toNat = (joined ns' % w.count).toNat := by
  apply Nat.eq_of_testBit_eq
  intro j
  rw [Bool.eq_iff_iff, testBit_joined_emod_iff, testBit_joined_emod_iff, h]

/-- The tokens of a mask before a place where a term has to follow. -/
inductive BeforeTerm (slot : Slot) : List Token → Prop where
  | start : BeforeTerm slot []
  | bar {ns : List Int} : slot.integer? token = some n → MoreTerms slot ts ns → bar.kind = .pipe →
      BeforeTerm slot (token :: (ts ++ [bar]))

end Grammar

/-- The failure is a problem of that code, wherever it is. -/
def Failure.Reports (e : Failure) (code : String) : Prop :=
  ∃ cause : Problem, ∃ place, e = .problem cause place ∧ cause.code = code

/-- A failure that blames a token for not being part of a mask. -/
def Failure.IsMaskSyntax (e : Failure) : Prop :=
  ∃ cause : Problem, ∃ place, e = cause.at place ∧ cause.code = "E_BITMASK_SYNTAX"

/-- Wherever the tokens from `c` on have a name for a term, it is that of an integer constant. -/
def Cursor.NamesIntegers (c : Cursor) (slot : Slot) : Prop :=
  ∀ ts c', c.Moves ts c' → Grammar.BeforeTerm slot ts → c'.peek.kind = .identifier →
    ∃ n, slot.integer? c'.peek = some n

/-- The tokens from `c` to a semicolon at `c'` are terms with bars between them, or none. -/
def Cursor.SpellsMask (c : Cursor) (slot : Slot) (ns : List Int) (c' : Cursor) : Prop :=
  ∃ ts, c.Moves ts c' ∧ Grammar.MaskTerms slot ts ns ∧ c'.peek.kind = .semicolon

theorem Failure.IsMaskSyntax.locate (h : e.IsMaskSyntax) (p : Position) :
    (e.locate p).IsMaskSyntax := by
  obtain ⟨cause, place, rfl, hcode⟩ := h
  exact ⟨cause, place, rfl, hcode⟩

theorem FieldScope.ends_term (h : c.peek.kind = .identifier → ∃ n, slot.integer? c.peek = some n) :
    Ends (maskTerm slot) c (fun n c' => ∃ token, c.Moves [token] c' ∧ slot.integer? token = some n)
      fun e _ => e.IsMaskSyntax := by
  have hterm (n : Int) (hn : slot.integer? c.peek = some n) :
      Ends (maskTerm slot) c
        (fun n c' => ∃ token, c.Moves [token] c' ∧ slot.integer? token = some n)
        fun e _ => e.IsMaskSyntax := by
    have hm := Assignment.moves_of_integer? hn
    have hread := maskTerm_of_moves hm hn
    unfold Ends
    rw [hread]
    exact ⟨c.peek, hm, hn⟩
  cases hl : c.peek.lexeme with
  | integer n => exact hterm n (Slot.integer?_of_integer hl)
  | identifier =>
    obtain ⟨n, hn⟩ := h (by rw [Token.kind, hl]; rfl)
    exact hterm n hn
  | _ =>
    apply CursorM.ends_peek_bind
    simp only [hl]
    exact CursorM.ends_fail ⟨_, _, rfl, rfl⟩

namespace Assignment

/-- A field for a mask whose slot is an unsigned integer of the width. -/
structure IsMask (a : Assignment) (w : Width) : Prop where
  directive : Directive.ofField a.field none = .ok .bitmask
  others : a.field.others = []
  typeOf : a.typeOf a.field.first = .integer ⟨w, false⟩

variable {a : Assignment} {d : Draft} {s s' : Session}

theorem ends_join (h : c.NamesIntegers slot) (hm : c.Moves (token :: ts) c')
    (hn : slot.integer? token = some n) (hns : Grammar.MoreTerms slot ts ns)
    (hbar : c'.expects [.ofKind .pipe] = true) (mask : Nat) :
    Ends (joinTerm slot mask) c'
      (fun _ c'' => (∃ ts ns, c.Moves (token :: ts) c'' ∧ Grammar.MoreTerms slot ts ns) ∧
        c''.rest.length < c'.rest.length)
      fun e _ => e.IsMaskSyntax := by
  rw [Cursor.expects_single, Expectation.isMetBy_ofKind] at hbar
  have hstep : c'.Moves [c'.peek] c'.advance := Cursor.moves_peek (by rw [hbar]; decide)
  have hnames := h _ _ (hm.trans hstep) (.bar hn hns hbar)
  refine CursorM.ends_read_bind ((FieldScope.ends_term hnames).bind ?_)
  rintro m c'' ⟨token', hm', ht⟩
  have hround := hstep.trans hm'
  refine Ends.pure ⟨⟨_, _, hm.trans hround, hns.snoc hbar ht⟩, ?_⟩
  rw [hround.length]
  exact Nat.lt_add_of_pos_left (by simp)

theorem ends_maskSyntax (h : c.NamesIntegers slot) :
    Ends (a.maskTerms slot) c (fun _ c' => ∃ ns, c.SpellsMask slot ns c')
      fun e _ => e.IsMaskSyntax := by
  apply CursorM.ends_isAt_bind
  split
  case isTrue hk => exact Ends.pure ⟨[], [], .refl c, .none, by simpa using hk⟩
  case isFalse =>
    apply (FieldScope.ends_term (h [] c (.refl c) .start)).bind
    rintro n c₁ ⟨token, hm, hn⟩
    refine Ends.bind (Ends.repeatWhile (I := fun _ c' => ∃ ts ns, c.Moves (token :: ts) c' ∧
      Grammar.MoreTerms slot ts ns) ?_ ⟨[], [], hm, .nil⟩) ?_
    · rintro mask c' ⟨ts, ns, hts, hns⟩ hbar
      exact ends_join h hts hn hns hbar mask
    · rintro mask c' ⟨⟨ts, ns, hts, hns⟩, -⟩
      apply CursorM.ends_isAt_bind
      split
      case isTrue hk => exact Ends.pure ⟨_, _, hts, .some hn hns, by simpa using hk⟩
      case isFalse => exact CursorM.ends_peek_bind (CursorM.ends_fail ⟨_, _, rfl, rfl⟩)

theorem bitmask_eq (h : a.IsMask w) :
    a.bitmask a.field.first = a.maskTerms a.field.first >>= fun mask =>
      pure (.integer (mask % w.count : Nat)) := by
  have hunsigned : (a.typeOf a.field.first).unsigned? = some ⟨w, false⟩ := by
    rw [h.typeOf]
    rfl
  rw [bitmask]
  simp only [h.others, List.isEmpty_nil, Bool.not_true, Bool.false_eq_true, if_false, hunsigned]

theorem bitmask_of_spells (h : a.IsMask w) (hc : c.SpellsMask a.field.first ns c') :
    a.bitmask a.field.first c = .ok (.integer (Grammar.joined ns % w.count).toNat) c' := by
  obtain ⟨ts, hm, ht, hk⟩ := hc
  rw [bitmask_eq h, bind_of_ok _ (maskTerms_of_moves ht hm hk), Grammar.maskOf_mod]
  rfl

theorem outcome_mask (h : a.IsMask w) (hc : s.cursor.SpellsMask a.field.first ns c) (d : Draft) :
    outcome (a.run d) s =
      a.stored d a.field.first (.ok (.integer (Grammar.joined ns % w.count).toNat)) := by
  apply outcome_run h.directive rfl
  intro journal
  rw [value, Compilation.outcome_reader]
  exact outcome_of_ok (bitmask_of_spells h hc)

def maskBytes (w : Width) (ns : List Int) : Bytes :=
  BigEndian.bytes w.bytes (Grammar.joined ns % w.count).toNat

theorem write_mask (h : a.IsMask w) (ns : List Int) :
    (a.typeOf a.field.first).write (.integer (Grammar.joined ns % w.count).toNat) =
      .ok (.ofBytes (maskBytes w ns)) := by
  have hpos : 0 < w.count := by cases w <;> decide
  have hlt : Grammar.maskOf ns % w.count < w.count := Nat.mod_lt _ hpos
  rw [Grammar.maskOf_mod] at hlt
  have hholds : (IntegerType.mk w false).Holds (Grammar.joined ns % w.count).toNat := by
    rw [← Grammar.maskOf_mod]
    exact holds_mod rfl _
  rw [h.typeOf, ValueType.write, Written.integer, IntegerType.pack, if_pos hholds, maskBytes]
  have hcut : (((Grammar.joined ns % w.count).toNat : Int) % w.count).toNat =
      (Grammar.joined ns % w.count).toNat := by
    rw [Int.emod_eq_of_lt (by omega) (by exact_mod_cast hlt)]
    rfl
  simp only [hcut]
  rfl

theorem put_mask (h : a.IsMask w) (ns : List Int) :
    d.put a.field.first (a.typeOf a.field.first)
        (.integer (Grammar.joined ns % w.count).toNat) =
      (d.write a.field.first.name (.ok (.ofBytes (maskBytes w ns)))).map (·.1) := by
  rw [Draft.put, write_mask h]

theorem follow_bitmask (d : Draft) : a.follow d .bitmask = a.store .bitmask d a.field.first :=
  bind_pure _

theorem run_of_spells (h : a.IsMask w) (hc : s.cursor.SpellsMask a.field.first ns c)
    (hopen : d.closed = false) (hfree : a.field.first.name ∉ d.slots) :
    ∃ journal, a.run d s =
      .ok { d with written := d.written ++ [(a.field.first.name, maskBytes w ns)] }
        { s with cursor := c, journal } := by
  obtain ⟨journal, hrun⟩ := run_eq h.directive d s
  have hvalue : a.value a.field.first .bitmask { s with journal } =
      .ok (.integer (Grammar.joined ns % w.count).toNat) { s with cursor := c, journal } :=
    Compilation.reader_of_ok (bitmask_of_spells h hc)
  have hput := put_mask (d := d) h ns
  rw [Draft.write_free hopen hfree] at hput
  refine ⟨journal, ?_⟩
  rw [hrun]
  refine Compilation.locating_of_ok ?_
  rw [follow_bitmask, store, bind_of_ok _ hvalue, hput]
  rfl

theorem reports_of_stored (h : a.IsMask w)
    (he : a.stored d a.field.first (.ok (.integer (Grammar.joined ns % w.count).toNat)) =
      .error e) :
    d.closed = true ∧ e.Reports "E_INTERNAL" ∨
      a.field.first.name ∈ d.slots ∧ e.Reports "E_DUPLICATE_VALUE" := by
  have hput := put_mask (d := d) h ns
  change (d.put a.field.first _ _).mapError _ = _ at he
  rw [hput] at he
  by_cases hclosed : d.closed = true
  · rw [Draft.write_of_closed hclosed] at he
    cases he
    exact .inl ⟨hclosed, _, _, rfl, rfl⟩
  · have hopen : d.closed = false := by simpa using hclosed
    by_cases hslot : a.field.first.name ∈ d.slots
    · rw [Draft.write_again hopen hslot] at he
      cases he
      exact .inr ⟨hslot, _, _, rfl, rfl⟩
    · rw [Draft.write_free hopen hslot] at he
      cases he

theorem outcome_mask_congr (h : a.IsMask w) (hc : s.cursor.SpellsMask a.field.first ns c)
    (hc' : s'.cursor.SpellsMask a.field.first ns' c')
    (hr : Grammar.residues w ns' = Grammar.residues w ns) :
    outcome (a.run d) s' = outcome (a.run d) s := by
  rw [outcome_mask h hc, outcome_mask h hc', Grammar.joined_emod_congr hr]

theorem run_of_not_spells (h : a.IsMask w) (hnames : s.cursor.NamesIntegers a.field.first)
    (hnone : ∀ ns c, ¬s.cursor.SpellsMask a.field.first ns c) :
    ∃ e s', a.run d s = .error e s' ∧ e.IsMaskSyntax := by
  have hmask : Ends (a.bitmask a.field.first) s.cursor (fun _ _ => False)
      fun e _ => e.IsMaskSyntax := by
    rw [bitmask_eq h]
    apply (ends_maskSyntax hnames).bind
    rintro _ c ⟨ns, hc⟩
    exact absurd hc (hnone ns c)
  obtain ⟨journal, hrun⟩ := run_eq h.directive d s
  have hends : Ends (a.run d) s (fun _ _ => False) fun e _ => e.IsMaskSyntax := by
    unfold Ends
    rw [hrun]
    apply Compilation.ends_locating
    rw [follow_bitmask]
    refine Ends.bind (M := fun _ _ => False) ?_ nofun
    apply Compilation.ends_onCursor
    exact hmask.mono nofun fun e _ he => he.locate _
  cases hr : a.run d s with
  | ok d' s' => exact (hends.of_ok hr).elim
  | error e s' => exact ⟨e, s', rfl, hends.of_error hr⟩

/-- A mask is stored as the union of its terms in two's complement, cut to the width of its slot; no
term is out of range, and only what is left of the terms counts, neither their order nor how often
they stand there. The reader stops on the semicolon, and what is no mask is rejected. -/
theorem run_bitmask (h : a.IsMask w) (d : Draft) (s : Session) :
    (∀ ns c, s.cursor.SpellsMask a.field.first ns c →
      (d.closed = false → a.field.first.name ∉ d.slots → ∃ journal, a.run d s =
        .ok { d with written := d.written ++ [(a.field.first.name, maskBytes w ns)] }
          { s with cursor := c, journal }) ∧
      (∀ e, outcome (a.run d) s = .error e →
        d.closed = true ∧ e.Reports "E_INTERNAL" ∨
          a.field.first.name ∈ d.slots ∧ e.Reports "E_DUPLICATE_VALUE") ∧
      ∀ s' ns' c', s'.cursor.SpellsMask a.field.first ns' c' →
        Grammar.residues w ns' = Grammar.residues w ns →
          outcome (a.run d) s' = outcome (a.run d) s) ∧
    (s.cursor.NamesIntegers a.field.first → (∀ ns c, ¬s.cursor.SpellsMask a.field.first ns c) →
      ∃ e s', a.run d s = .error e s' ∧ e.IsMaskSyntax) := by
  refine ⟨?_, run_of_not_spells h⟩
  intro ns c hc
  refine ⟨run_of_spells h hc, ?_, fun s' ns' c' hc' hr => outcome_mask_congr h hc hc' hr⟩
  intro e he
  rw [outcome_mask h hc] at he
  exact reports_of_stored h he

end Assignment

namespace Sample

theorem rank_isMask : (assigning rank (some { name := "Bitmask" })).IsMask .two :=
  ⟨by decide, rfl, by decide⟩

/-- A mask of two terms with a bar between them, and two numbers without one. -/
def maskTokens : List Token :=
  [tokenOf (.integer (-256)), tokenOf .pipe, tokenOf (.integer 65537), tokenOf .semicolon]

def brokenMask : List Token :=
  [tokenOf (.integer 1), tokenOf (.integer 2), tokenOf .semicolon]

theorem maskTokens_spell :
    (sessionOf maskTokens).cursor.SpellsMask rank [-256, 65537]
      ((sessionOf maskTokens).cursor.advance 3) := by
  have hn : rank.integer? (tokenOf (.integer 65537)) = some 65537 := rfl
  exact ⟨maskTokens.take 3, ⟨rfl, rfl, rfl⟩, .some rfl (.cons rfl hn .nil), rfl⟩

theorem brokenMask_names : (sessionOf brokenMask).cursor.NamesIntegers rank := by
  intro ts c hm _ hk
  have hmem : c.peek ∈ (sessionOf brokenMask).cursor.stream := by
    rw [hm.stream]
    exact List.mem_append_right ts c.peek_mem_stream
  have hnone : ∀ token ∈ (sessionOf brokenMask).cursor.stream, token.kind ≠ .identifier := by
    decide
  exact absurd hk (hnone _ hmem)

theorem brokenMask_spells_none (ns : List Int) (c : Cursor) :
    ¬(sessionOf brokenMask).cursor.SpellsMask rank ns c := by
  rintro ⟨ts, hm, ht, hk⟩
  have hrest : brokenMask = ts ++ c.rest := hm.rest
  have hpeek : c.peek = brokenMask.getD ts.length c.last := by
    rw [hrest, List.getD_append_right _ _ _ _ (Nat.le_refl _), Nat.sub_self]
    rfl
  cases ht with
  | none =>
    rw [hpeek] at hk
    nomatch hk
  | some _ hns =>
    cases hns with
    | nil =>
      rw [hpeek] at hk
      nomatch hk
    | cons hbar _ _ =>
      simp only [brokenMask, List.cons_append, List.cons.injEq] at hrest
      rw [← hrest.2.1] at hbar
      exact absurd hbar (by decide)

end Sample

open Sample in
theorem Assignment.run_bitmask_sample :
    (∃ journal, (assigning rank (some { name := "Bitmask" })).run emptyCard (sessionOf maskTokens) =
      .ok { emptyCard with written := [("rank", [255, 1])] }
        { sessionOf maskTokens with cursor := (sessionOf maskTokens).cursor.advance 3, journal }) ∧
    ∃ e s', (assigning rank (some { name := "Bitmask" })).run emptyCard (sessionOf brokenMask) =
      .error e s' ∧ e.IsMaskSyntax := by
  have hrun (tokens : List Token) := run_bitmask rank_isMask emptyCard (sessionOf tokens)
  constructor
  · have hbytes : maskBytes .two [-256, 65537] = [255, 1] := by decide +kernel
    rw [← hbytes]
    exact ((hrun maskTokens).1 _ _ maskTokens_spell).1 rfl (by decide)
  · exact (hrun brokenMask).2 brokenMask_names brokenMask_spells_none

end ResourceScript

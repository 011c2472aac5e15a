import ResourceScript.Proofs.Texts

namespace ResourceScript

/-- What a computation comes to, whatever it leaves behind. -/
def outcome (m : EStateM ε σ α) (s : σ) : Except ε α :=
  match m s with
  | .ok a _ => .ok a
  | .error e _ => .error e

section

variable {m : EStateM ε σ α} {s s' : σ}

theorem outcome_of_ok (h : m s = .ok v s') : outcome m s = .ok v := by
  rw [outcome, h]

theorem outcome_of_error (h : m s = .error e s') : outcome m s = .error e := by
  rw [outcome, h]

theorem outcome_bind_of_ok (f : α → EStateM ε σ β) (h : m s = .ok v s') :
    outcome (m >>= f) s = outcome (f v) s' := by
  rw [outcome, outcome, bind_of_ok f h]

theorem outcome_bind {f : α → EStateM ε σ β} {g : α → Except ε β}
    (hf : ∀ v s', outcome (f v) s' = g v) : outcome (m >>= f) s = outcome m s >>= g := by
  cases hm : m s with
  | ok v s' =>
    rw [outcome_bind_of_ok f hm, hf, outcome_of_ok hm]
    rfl
  | error e s' =>
    rw [outcome_of_error (bind_of_error f hm), outcome_of_error hm]
    rfl

end

namespace Assignment

/-- Assignments of one slot under one name. The first has a directive, the second has none. -/
structure Counterpart (a a' : Assignment) (slot : Slot) (directive : Directive) : Prop where
  settings : a'.settings = a.settings
  name : a'.name = a.name
  slots : a.field.slots = [slot]
  slots' : a'.field.slots = [slot]
  typeOf : a'.typeOf slot = a.typeOf slot
  directive : Directive.ofField a.field none = .ok directive
  plain : a'.field.tag = none

def stored (a : Assignment) (d : Draft) (slot : Slot) (result : Except Failure Value) :
    Except Failure Draft :=
  (result >>= d.put slot (a.typeOf slot)).mapError (·.locate a.name.position)

end Assignment

variable {a a' : Assignment} {slot : Slot} {directive : Directive} {d : Draft} {s s' : Session}
  {c : Cursor} {token token' : Token} {content name : Text} {b : Bytes} {n : Int} {i : IntegerType}
  {type : ValueType}

namespace CursorM

theorem outcome_ofExcept (x : Except Failure α) : outcome (ofExcept x) c = x := by
  cases x <;> rfl

theorem outcome_peek_bind (f : Token → CursorM α) : outcome (peek >>= f) c = outcome (f c.peek) c :=
  rfl

theorem outcome_read_bind (f : Token → CursorM α) :
    outcome (read >>= f) c = outcome (f c.peek) c.advance := rfl

end CursorM

namespace Compilation

theorem outcome_ofExcept (x : Except Failure α) : outcome (ofExcept x) s = x := by
  cases x <;> rfl

theorem outcome_locating {m : Compilation α} (p : Position) :
    outcome (locating p m) s = (outcome m s).mapError (·.locate p) := by
  rw [outcome, outcome, locating]
  cases m s <;> rfl

theorem outcome_reader (m : CursorM α) :
    outcome (liftM m : Compilation α) s = outcome m s.cursor := by
  change outcome (onCursor m) s = _
  rw [outcome, outcome, onCursor]
  cases m s.cursor <;> rfl

end Compilation

namespace FieldScope

variable {scope : FieldScope}

theorem outcome_string (h : c.peek.lexeme = .string content) :
    outcome (scope.string slot) c = scope.encodeText content c.peek := by
  rw [string, CursorM.outcome_peek_bind]
  simp only [h]
  rw [CursorM.outcome_read_bind, CursorM.outcome_ofExcept]

theorem outcome_integer (h : c.peek.lexeme = .integer n) :
    outcome (scope.integer slot type) c = scope.checkRange n type c.peek := by
  rw [integer, CursorM.outcome_peek_bind]
  simp only [h]
  rw [CursorM.outcome_read_bind, CursorM.outcome_ofExcept]

theorem checkRange_eq_of_position (h : token.position = token'.position) :
    scope.checkRange n type token = scope.checkRange n type token' := by
  rw [checkRange, checkRange, h]

theorem outcome_resourceId (h : c.peek.lexeme = .resourceId n) :
    outcome (scope.resourceId type) c = scope.checkRange n type c.peek := by
  rw [resourceId, CursorM.outcome_peek_bind]
  simp only [h]
  rw [CursorM.outcome_read_bind, CursorM.outcome_ofExcept]

end FieldScope

namespace Assignment

theorem run_eq (hd : Directive.ofField a.field none = .ok directive) (d : Draft) (s : Session) :
    ∃ journal, a.run d s =
      Compilation.locating a.name.position (a.follow d directive) { s with journal } := by
  rw [run, bind_of_ok _ Compilation.peek_eq,
    bind_of_ok _ (Compilation.ofExcept_of_ok (Directive.ofField_of_ok hd _))]
  exact ⟨_, rfl⟩

theorem outcome_run (hd : Directive.ofField a.field none = .ok directive)
    (hslots : directive.slots a.field = [slot])
    (hvalue : ∀ journal, outcome (a.value slot directive) { s with journal } = result) :
    outcome (a.run d) s = a.stored d slot result := by
  have hf : a.follow d directive = a.store directive d slot := by
    rw [follow, hslots, List.foldlM_cons]
    exact bind_pure _
  have hput (v : Value) (s' : Session) : outcome (Compilation.ofExcept
      (d.put slot (a.typeOf slot) v)) s' = d.put slot (a.typeOf slot) v :=
    Compilation.outcome_ofExcept _
  obtain ⟨journal, hrun⟩ := run_eq hd d s
  have houtcome : outcome (a.run d) s =
      outcome (Compilation.locating a.name.position (a.follow d directive)) { s with journal } := by
    rw [outcome, hrun, outcome]
  rw [houtcome, Compilation.outcome_locating, hf, store, outcome_bind hput, hvalue, stored]

theorem outcome_literal_text (htext : type.isText) (htype : a.typeOf slot = type)
    (hl : c.peek.lexeme = .string content) :
    outcome (a.literal slot type) c =
      a.scope.encodeText content c.peek >>= a.hold slot := by
  have hfit (b : Bytes) (c' : Cursor) : outcome (do
        let b ← CursorM.ofExcept (a.fit type b)
        return .bytes b) c' = (a.fit type b).map Value.bytes := by
    rw [outcome_bind (g := fun b => .ok (.bytes b)) fun _ _ => rfl, CursorM.outcome_ofExcept]
    rfl
  have hhold : a.hold slot = fun b => (a.fit type b).map Value.bytes := by
    funext b
    rw [hold, htype]
    cases type <;> first | rfl | simp [ValueType.isText] at htext
  have hliteral : a.literal slot type = a.scope.string slot >>= fun b => do
      let b ← CursorM.ofExcept (a.fit type b)
      return .bytes b := by
    cases type <;> first | rfl | simp [ValueType.isText] at htext
  rw [hliteral, outcome_bind hfit, FieldScope.outcome_string hl, hhold]

theorem outcome_literal_integer (hl : c.peek.lexeme = .integer n) :
    outcome (a.literal slot (.integer i)) c =
      (a.scope.checkRange n (.integer i) c.peek).map .integer := by
  rw [literal, outcome_bind (g := fun n => .ok (.integer n)) fun _ _ => rfl,
    FieldScope.outcome_integer hl]
  rfl

theorem outcome_reference (hr : (a.typeOf slot).holdsReference)
    (hl : c.peek.lexeme = .resourceId n) :
    outcome (a.reference slot) c = (a.scope.checkRange n (a.typeOf slot) c.peek).map .integer := by
  rw [reference]
  simp only [hr, if_true]
  rw [outcome_bind (g := fun n => .ok (.integer n)) fun _ _ => rfl,
    FieldScope.outcome_resourceId hl]
  rfl

theorem outcome_file_text (hl : s.cursor.peek.lexeme = .string content) :
    outcome (a.file slot) s = a.scope.encodeText content s.cursor.peek >>= a.hold slot := by
  have hm := FieldScope.moves_of_lexeme hl nofun
  have himported : s.cursor.expects [.word "import"] = false := by
    rw [Cursor.expects_single, Bool.eq_false_iff, ne_eq, Expectation.isMetBy_word, Token.kind, hl]
    simp [Lexeme.kind]
  have hhold (b : Bytes) (s' : Session) :
      outcome (Compilation.ofExcept (a.hold slot b)) s' = a.hold slot b :=
    Compilation.outcome_ofExcept _
  rw [file, outcome_bind_of_ok _ (Compilation.reader_of_ok (CursorM.expects_eq himported))]
  simp only [Bool.false_eq_true, if_false]
  rw [outcome_bind_of_ok _ (Compilation.reader_of_ok (FieldScope.stringToken_of_moves hm hl)),
    outcome_bind hhold, Compilation.outcome_ofExcept]

theorem outcome_file_import (hi : s.cursor.peek.IsWord "import")
    (hl : s.cursor.advance.peek.lexeme = .string name) (hb : a.settings.import? name = some b) :
    outcome (a.file slot) s = a.hold slot b := by
  have hm := FieldScope.moves_of_lexeme hl nofun
  have himported : s.cursor.expects [.word "import"] = true := by
    rwa [Cursor.expects_single, Expectation.isMetBy_word]
  let t : Session := { s with cursor := s.cursor.advance.advance }
  obtain ⟨journal, hj⟩ : ∃ journal, a.importFile s.cursor.advance.peek name t =
      .ok b { t with journal } := importFile_of_import hb
  rw [file, outcome_bind_of_ok _ (Compilation.reader_of_ok (CursorM.expects_eq himported))]
  simp only [if_true]
  rw [outcome_bind_of_ok _ (Compilation.reader_of_ok (m := CursorM.read) rfl),
    outcome_bind_of_ok _ (Compilation.reader_of_ok (FieldScope.stringToken_of_moves hm hl)),
    outcome_bind_of_ok _ hj, Compilation.outcome_ofExcept]

theorem maskBits_mod_of_holds (hs : i.signed = false) (hn : i.Holds n) :
    ((maskBits n % i.width.count : Nat) : Int) = n := by
  obtain ⟨hlo, hhi⟩ := hn
  have hcount : i.width.count ≤ Width.eight.count := by cases i.width <;> decide
  simp only [IntegerType.lo, IntegerType.hi, hs, Bool.false_eq_true, if_false] at hlo hhi
  have hbits : maskBits n = n.toNat := by
    rw [maskBits, Int.emod_eq_of_lt hlo (by omega)]
  rw [hbits, Nat.mod_eq_of_lt (by omega)]
  exact Int.toNat_of_nonneg hlo

theorem moves_of_integer? (ht : slot.integer? c.peek = some n) : c.Moves [c.peek] c.advance := by
  obtain hl | ⟨hl, -⟩ := Slot.integer?_eq_some ht <;>
  exact FieldScope.moves_of_lexeme hl nofun

theorem outcome_bitmask (ho : a.field.others = []) (hi : (a.typeOf slot).unsigned? = some i)
    (ht : slot.integer? c.peek = some n) (hn : i.Holds n)
    (hk : c.advance.peek.kind = .semicolon) :
    outcome (a.bitmask slot) c = .ok (.integer n) := by
  have hterms : Grammar.MaskTerms slot [c.peek] [n] := .some ht .nil
  have hread := bitmask_of_moves (moves_of_integer? ht) (.mask ho hi hterms) hk
  rw [outcome_of_ok hread, Grammar.maskOf_singleton,
    maskBits_mod_of_holds (unsigned?_eq_some hi).2 hn]

theorem outcome_literal_term (hi : a.typeOf slot = .integer i)
    (ht : slot.integer? c.peek = some n) (hn : i.Holds n) :
    outcome (a.literal slot (a.typeOf slot)) c = .ok (.integer n) :=
  outcome_of_ok (literal_of_moves (moves_of_integer? ht) (.integer ht) (by rw [hi]; exact hn))

theorem encodeText_eq_ok : a.scope.encodeText content token = .ok b ↔
    a.settings.encode? content = some b :=
  FieldScope.encodeText_eq_ok ⟨rfl, rfl⟩

theorem exists_stored_hold_iff (hopen : d.closed = false) (hfree : slot.name ∉ d.slots) :
    (∃ d', a.stored d slot (a.hold slot b) = .ok d') ↔
      (Value.bytes b).Admissible (a.typeOf slot) := by
  constructor
  · rintro ⟨d', h⟩
    obtain ⟨v, hv, -⟩ := Except.bind_eq_ok.mp (Except.mapError_eq_ok.mp h)
    exact (hold_eq_ok.mp hv).2
  · intro ha
    obtain ⟨d', hput⟩ : ∃ d', d.put slot (a.typeOf slot) (.bytes b) = .ok d' := by
      simp only [Draft.put, Draft.write, hopen, hfree, ValueType.write_of_admissible ha,
        Bool.false_eq_true, if_false, Except.map]
      exact ⟨_, rfl⟩
    have hv : a.hold slot b = .ok (.bytes b) := hold_eq_ok.mpr ⟨rfl, ha⟩
    exact ⟨d', Except.mapError_eq_ok.mpr (Except.bind_eq_ok.mpr ⟨_, hv, hput⟩)⟩

theorem stored_hold_too_large (hlimit : (a.typeOf slot).textLimit? = some limit)
    (hl : limit < b.length) :
    a.stored d slot (a.hold slot b) =
      .error ((Problem.stringTooLarge a.name.text b.length limit).at a.name.position) := by
  have hbytes : (a.typeOf slot).holdsBytes := by
    cases htype : a.typeOf slot <;> simp_all [ValueType.textLimit?, ValueType.holdsBytes]
  rw [stored, hold, if_pos hbytes, fit, hlimit]
  simp only [hl, if_true]
  rfl

namespace Counterpart

variable (h : a.Counterpart a' slot directive)

include h

theorem scope_eq : a'.scope = a.scope := by
  rw [scope, scope, h.name, h.settings]

theorem hold_eq : a'.hold slot = a.hold slot := by
  funext b
  rw [hold, hold, h.typeOf, fit, fit, h.scope_eq]

theorem stored_eq : a'.stored d slot result = a.stored d slot result := by
  rw [stored, stored, h.typeOf, h.name]

theorem first_eq : a.field.first = slot :=
  (List.cons.inj h.slots).1

theorem others_eq : a.field.others = [] :=
  (List.cons.inj h.slots).2

theorem slots_eq : directive.slots a.field = [slot] := by
  cases directive with
  | positional => exact h.slots
  | _ => exact congrArg (fun slot => [slot]) h.first_eq

theorem outcome_run
    (hvalue : ∀ journal, outcome (a.value slot directive) { s with journal } = result) :
    outcome (a.run d) s = a.stored d slot result :=
  Assignment.outcome_run h.directive h.slots_eq hvalue

theorem outcome_run_plain
    (hliteral : outcome (a'.literal slot (a.typeOf slot)) s.cursor = result) :
    outcome (a'.run d) s = a.stored d slot result := by
  have hd : Directive.ofField a'.field none = .ok .positional := by
    rw [Directive.ofField, h.plain]
  rw [← h.stored_eq]
  refine Assignment.outcome_run hd h.slots' fun journal => ?_
  rw [← hliteral, ← h.typeOf]
  exact Compilation.outcome_reader _

theorem text_plain (htext : (a.typeOf slot).isText) (hl : s.cursor.peek.lexeme = .string content) :
    outcome (a'.run d) s =
      a.stored d slot (a.scope.encodeText content s.cursor.peek >>= a.hold slot) := by
  refine h.outcome_run_plain ?_
  rw [outcome_literal_text htext h.typeOf hl, h.scope_eq, h.hold_eq]

end Counterpart

section

variable (h : a.Counterpart a' slot .file)

include h

theorem Counterpart.text (hl : s.cursor.peek.lexeme = .string content) :
    outcome (a.run d) s =
      a.stored d slot (a.scope.encodeText content s.cursor.peek >>= a.hold slot) :=
  h.outcome_run fun journal => outcome_file_text (s := { s with journal }) hl

theorem Counterpart.contents (hi : s.cursor.peek.IsWord "import")
    (hl : s.cursor.advance.peek.lexeme = .string name) (hb : a.settings.import? name = some b) :
    outcome (a.run d) s = a.stored d slot (a.hold slot b) :=
  h.outcome_run fun journal => outcome_file_import (s := { s with journal }) hi hl hb

end

theorem Counterpart.id (h : a.Counterpart a' slot .reference)
    (hr : (a.typeOf slot).holdsReference) (hl : s.cursor.peek.lexeme = .resourceId n) :
    outcome (a.run d) s = a.stored d slot
      ((a.scope.checkRange n (a.typeOf slot) s.cursor.peek).map .integer) := by
  refine h.outcome_run fun journal => ?_
  rw [value, Compilation.outcome_reader]
  exact outcome_reference hr hl

theorem Counterpart.integer_plain (h : a.Counterpart a' slot directive)
    (hi : a.typeOf slot = .integer i) (hl : s.cursor.peek.lexeme = .integer n) :
    outcome (a'.run d) s = a.stored d slot
      ((a.scope.checkRange n (a.typeOf slot) s.cursor.peek).map .integer) := by
  refine h.outcome_run_plain ?_
  rw [hi, outcome_literal_integer hl, h.scope_eq]

theorem toOption_stored_integer (token token' : Token) (hi : a.typeOf slot = .integer i) :
    (a.stored d slot ((a.scope.checkRange n (a.typeOf slot) token).map .integer)).toOption =
      (a.stored d slot ((a.scope.checkRange n (a.typeOf slot) token').map .integer)).toOption := by
  have hint : (a.typeOf slot).integers? = some i := by
    rw [hi]
    rfl
  by_cases hn : i.Holds n
  · rw [FieldScope.checkRange_of_holds hint hn, FieldScope.checkRange_of_holds hint hn]
  · have hfails (token : Token) : ∃ e, a.stored d slot
        ((a.scope.checkRange n (a.typeOf slot) token).map .integer) = .error e := by
      cases hc : a.scope.checkRange n (a.typeOf slot) token with
      | ok m => exact absurd (FieldScope.holds_of_checkRange hint hc).2 hn
      | error e => exact ⟨_, rfl⟩
    obtain ⟨e, he⟩ := hfails token
    obtain ⟨e', he'⟩ := hfails token'
    rw [he, he']
    rfl

theorem Counterpart.mask (h : a.Counterpart a' slot .bitmask)
    (hi : (a.typeOf slot).unsigned? = some i) (ht : slot.integer? s.cursor.peek = some n)
    (hn : i.Holds n) (hk : s.cursor.advance.peek.kind = .semicolon) :
    outcome (a.run d) s = a.stored d slot (.ok (.integer n)) ∧
      outcome (a'.run d) s = a.stored d slot (.ok (.integer n)) := by
  constructor
  · refine h.outcome_run fun journal => ?_
    rw [value, Compilation.outcome_reader]
    exact outcome_bitmask h.others_eq hi ht hn hk
  · refine h.outcome_run_plain ?_
    rw [← h.typeOf]
    exact outcome_literal_term (h.typeOf.trans (unsigned?_eq_some hi).1) ht hn

/-- A field with a directive comes to the same as the field without it. A text literal ends in the
same draft or the same failure, and so does a file with the bytes of that literal; of the texts that
can be encoded, those that the type has room for are taken. A number is taken as an id exactly if it
is taken as an integer. One term in range is stored as it is. -/
theorem directive_agrees_with_plain (h : a.Counterpart a' slot directive) (d : Draft) :
    (directive = .file → (a.typeOf slot).isText →
      ∀ s content, s.cursor.peek.lexeme = .string content →
        outcome (a.run d) s = outcome (a'.run d) s ∧
        ∀ b, a.settings.encode? content = some b →
          (∀ s' name, s'.cursor.peek.IsWord "import" →
            s'.cursor.advance.peek.lexeme = .string name → a.settings.import? name = some b →
            outcome (a.run d) s' = outcome (a'.run d) s) ∧
          (d.closed = false → slot.name ∉ d.slots →
            ((∃ d', outcome (a.run d) s = .ok d') ↔ (Value.bytes b).Admissible (a.typeOf slot))) ∧
          ∀ limit, (a.typeOf slot).textLimit? = some limit → limit < b.length →
            outcome (a.run d) s = .error
              ((Problem.stringTooLarge a.name.text b.length limit).at a.name.position)) ∧
    (directive = .reference → (a.typeOf slot).holdsReference →
      ∀ s s' n, s.cursor.peek.lexeme = .resourceId n → s'.cursor.peek.lexeme = .integer n →
        (outcome (a.run d) s).toOption = (outcome (a'.run d) s').toOption ∧
        (s.cursor.peek.position = s'.cursor.peek.position →
          outcome (a.run d) s = outcome (a'.run d) s')) ∧
    (directive = .bitmask → ∀ i, (a.typeOf slot).unsigned? = some i →
      ∀ s n, slot.integer? s.cursor.peek = some n → i.Holds n →
        s.cursor.advance.peek.kind = .semicolon → outcome (a.run d) s = outcome (a'.run d) s) := by
  refine ⟨?_, ?_, ?_⟩
  · rintro rfl htext s content hl
    have hplain : outcome (a'.run d) s = _ := h.text_plain htext hl
    refine ⟨(h.text hl).trans hplain.symm, fun b hb => ?_⟩
    have he : a.scope.encodeText content s.cursor.peek = .ok b := encodeText_eq_ok.mpr hb
    have hheld : outcome (a.run d) s = a.stored d slot (a.hold slot b) := by
      rw [h.text hl, he]
      rfl
    refine ⟨fun s' name hi hl' hf => ?_, fun hopen hfree => ?_, fun limit hlimit hlt => ?_⟩
    · rw [h.contents hi hl' hf, ← hheld, h.text hl, hplain]
    · rw [hheld]
      exact exists_stored_hold_iff hopen hfree
    · rw [hheld]
      exact stored_hold_too_large hlimit hlt
  · rintro rfl hr s s' n hl hl'
    obtain ⟨i, hi⟩ := integers?_of_holdsReference hr
    rw [h.id hr hl, h.integer_plain hi hl']
    refine ⟨toOption_stored_integer _ _ hi, fun hp => ?_⟩
    rw [FieldScope.checkRange_eq_of_position hp]
  · rintro rfl i hi s n ht hn hk
    obtain ⟨hmask, hplain⟩ := h.mask (d := d) hi ht hn hk
    rw [hmask, hplain]

end Assignment

namespace Sample

def link : Slot where
  name := "link"
  type := .integer ⟨.two, true⟩

/-- A note that holds the id of another resource as well. -/
def card : TypeTemplate :=
  { note with entries := ⟨link.name, link.type⟩ :: note.entries }

/-- The assignment of a slot of a card, in a directory that has a file with two letters. -/
def assigning (slot : Slot) (tag : Option FieldTag) : Assignment where
  settings := { settings with
    limit := 2
    files := { working := [], nodes := [([[102]], .file [104, 105])] } }
  type := card
  name := tokenOf .identifier slot.name
  field := { name := slot.name, first := slot, tag }

def emptyCard : Draft :=
  Draft.ofTemplate card 200 []

theorem counterpart (slot : Slot) (tag : FieldTag) (directive : Directive)
    (h : Directive.ofField (assigning slot (some tag)).field none = .ok directive) :
    (assigning slot (some tag)).Counterpart (assigning slot none) slot directive :=
  ⟨rfl, rfl, rfl, rfl, rfl, h, rfl⟩

end Sample

open Sample in
theorem Assignment.directives_agree_sample :
    (outcome ((assigning label (some { name := "File" })).run emptyCard)
        (sessionOf [tokenOf .identifier "import", tokenOf (.string (Text.ofString "f"))]) =
      outcome ((assigning label none).run emptyCard)
        (sessionOf [tokenOf (.string (Text.ofString "hi"))])) ∧
    outcome ((assigning label none).run emptyCard)
        (sessionOf [tokenOf (.string (Text.ofString "hi"))]) =
      .ok { emptyCard with written := [("label", [104, 105, 0])] } ∧
    (outcome ((assigning link (some { name := "Note", isReference := true })).run emptyCard)
        (sessionOf [tokenOf (.resourceId (-5))])).toOption =
      (outcome ((assigning link none).run emptyCard)
        (sessionOf [tokenOf (.integer (-5))])).toOption ∧
    outcome ((assigning rank (some { name := "Bitmask" })).run emptyCard)
        (sessionOf [tokenOf (.integer 65535), tokenOf .semicolon]) =
      outcome ((assigning rank none).run emptyCard)
        (sessionOf [tokenOf (.integer 65535), tokenOf .semicolon]) := by
  have hfile := directive_agrees_with_plain
    (counterpart label { name := "File" } .file (by decide)) emptyCard
  have hreference := directive_agrees_with_plain
    (counterpart link { name := "Note", isReference := true } .reference (by decide))
    emptyCard
  have hmask := directive_agrees_with_plain
    (counterpart rank { name := "Bitmask" } .bitmask (by decide)) emptyCard
  refine ⟨?_, by decide +kernel, ?_, ?_⟩
  · have htext := hfile.1 rfl rfl (sessionOf [tokenOf (.string (Text.ofString "hi"))]) _ rfl
    have hb : (assigning label (some { name := "File" })).settings.encode? (Text.ofString "hi") =
        some [104, 105] := by decide +kernel
    exact (htext.2 _ hb).1 _ (Text.ofString "f") ⟨rfl, rfl⟩ rfl (by decide +kernel)
  · exact (hreference.2.1 rfl rfl _ _ (-5) rfl rfl).1
  · exact hmask.2.2 rfl ⟨.two, false⟩ (by decide) _ 65535 rfl (by decide) rfl

end ResourceScript

import Mathlib.Data.List.TakeDrop
import ResourceScript.Proofs.Stream

namespace ResourceScript

namespace Cursor

/-- The cursors that consuming tokens leads to. Nothing else moves a cursor. -/
inductive Reaches (start : Cursor) : Cursor → Prop where
  | start : Reaches start start
  | advance : Reaches start c → Reaches start (c.advance n)
  | read : Reaches start c → CursorM.read c = .ok t c' → Reaches start c'
  | ensure : Reaches start c → CursorM.ensure es c = .ok ts c' → Reaches start c'

/-- The cursor stands in the tokens at the place that its index tells. -/
structure StandsIn (c : Cursor) (tokens : List Token) : Prop where
  stream_eq : c.stream = tokens.drop c.index
  index_lt : c.index < tokens.length

variable {c c' start : Cursor} {tokens : List Token} {es : List Expectation}

theorem Reaches.exists_advance (h : start.Reaches c) : ∃ n, c = start.advance n := by
  induction h with
  | start => exact ⟨0, start.advance_zero.symm⟩
  | advance _ ih =>
    obtain ⟨m, rfl⟩ := ih
    exact ⟨_, start.advance_advance _ _⟩
  | read _ hread ih =>
    obtain ⟨m, rfl⟩ := ih
    cases hread
    exact ⟨_, start.advance_advance _ _⟩
  | ensure _ hensure ih =>
    obtain ⟨m, rfl⟩ := ih
    rw [CursorM.ensure] at hensure
    split at hensure
    · cases hensure
    · cases hensure
      exact ⟨_, start.advance_advance _ _⟩

theorem exists_ofTokens {last : Token} (hlast : tokens.getLast? = some last)
    (hend : last.kind = .endOfInput) : ∃ c, ofTokens tokens = .ok c := by
  rw [ofTokens, hlast]
  exact ⟨_, dif_pos hend⟩

theorem index_of_ofTokens (h : ofTokens tokens = .ok c) : c.index = 0 := by
  rw [ofTokens] at h
  split at h
  · split at h
    · obtain rfl := Except.ok.inj h
      rfl
    · cases h
  · cases h

theorem standsIn_of_ofTokens (h : ofTokens tokens = .ok c) : c.StandsIn tokens := by
  have hstream := stream_of_ofTokens h
  constructor
  · rw [index_of_ofTokens h, hstream, List.drop_zero]
  · rw [index_of_ofTokens h, ← hstream, stream, List.length_append]
    exact Nat.lt_add_left _ Nat.one_pos

theorem StandsIn.length (h : c.StandsIn tokens) : c.index + c.rest.length + 1 = tokens.length := by
  have hlength := congrArg List.length h.stream_eq
  have hlt := h.index_lt
  rw [stream, List.length_append, List.length_singleton, List.length_drop] at hlength
  omega

theorem StandsIn.rest_subset (h : c.StandsIn tokens) : c.rest ⊆ tokens.dropLast := by
  rw [← dropLast_stream, h.stream_eq, List.dropLast_drop_eq_drop_dropLast]
  exact List.drop_subset c.index tokens.dropLast

theorem StandsIn.index_advance (h : c.StandsIn tokens) (n : Nat) :
    (c.advance n).index = min (c.index + n) (tokens.length - 1) := by
  have hlength := h.length
  simp only [Cursor.advance]
  omega

theorem StandsIn.moves (h : c.StandsIn tokens) (hm : c.Moves ts c') : c'.StandsIn tokens := by
  have hlength := h.length
  have hrest := hm.length
  have hindex := hm.index
  constructor
  · rw [hindex, ← List.drop_drop, ← h.stream_eq, hm.stream, List.drop_left]
  · omega

theorem moves_advance_take (c : Cursor) (n : Nat) : c.Moves (c.rest.take n) (c.advance n) where
  rest := (List.take_append_drop n c.rest).symm
  last := rfl
  index := by rw [List.length_take]; rfl

theorem StandsIn.reaches (h : start.StandsIn tokens) (hc : start.Reaches c) :
    c.StandsIn tokens := by
  obtain ⟨n, rfl⟩ := hc.exists_advance
  exact h.moves (start.moves_advance_take n)

theorem StandsIn.getElem?_peek (h : c.StandsIn tokens) (n : Nat) :
    tokens[min (c.index + n) (tokens.length - 1)]? = some (c.peek n) := by
  have hlength := h.length
  have hplace : min (c.index + n) (tokens.length - 1) = c.index + min n c.rest.length := by omega
  rw [hplace, ← List.getElem?_drop, ← h.stream_eq, stream, peek, List.getD_eq_getElem?_getD]
  by_cases hn : n < c.rest.length
  · rw [Nat.min_eq_left (Nat.le_of_lt hn), List.getElem?_append_left hn,
      List.getElem?_eq_getElem hn, Option.getD_some]
  · have hle := Nat.le_of_not_lt hn
    rw [Nat.min_eq_right hle, List.getElem?_concat_length, List.getElem?_eq_none hle,
      Option.getD_none]

theorem expects_iff : c.expects es = true ↔
    ∀ (i : Nat) (e : Expectation), es[i]? = some e → e.isMetBy (c.peek i) = true := by
  induction es generalizing c with
  | nil => simp [expects_nil]
  | cons e es ih =>
    rw [expects_cons, Bool.and_eq_true, ih]
    simp only [peek_advance]
    constructor
    · rintro ⟨he, hes⟩ i e' hi
      cases i with
      | zero =>
        obtain rfl := Option.some.inj hi
        exact he
      | succ i =>
        rw [Nat.add_comm]
        exact hes i e' hi
    · intro h
      refine ⟨h 0 e rfl, fun i e' hi => ?_⟩
      rw [Nat.add_comm]
      exact h (i + 1) e' hi

theorem exists_of_mismatch? (h : c.mismatch? es = some (e, t)) :
    ∃ i, es[i]? = some e ∧ c.peek i = t ∧ e.isMetBy t = false ∧
      ∀ j < i, ∀ e', es[j]? = some e' → e'.isMetBy (c.peek j) = true := by
  induction es generalizing c with
  | nil => cases h
  | cons e' es ih =>
    rw [mismatch?] at h
    split at h
    case isTrue hmet =>
      obtain ⟨i, he, rfl, hfails, hbefore⟩ := ih h
      refine ⟨i + 1, he, ?_, hfails, ?_⟩
      · rw [peek_advance, Nat.add_comm]
      · intro j hj e'' hj'
        cases j with
        | zero =>
          obtain rfl := Option.some.inj hj'
          exact hmet
        | succ j =>
          have hmet' := hbefore j (Nat.lt_of_succ_lt_succ hj) e'' hj'
          rwa [peek_advance, Nat.add_comm] at hmet'
    case isFalse hfails =>
      obtain ⟨rfl, rfl⟩ := Prod.mk.inj (Option.some.inj h)
      exact ⟨0, rfl, rfl, Bool.eq_false_iff.mpr hfails, by simp⟩

end Cursor

namespace CursorM

variable {c : Cursor} {tokens : List Token}

theorem mapM_read (c : Cursor) (es : List α) : (es.mapM fun _ => read) c =
    .ok ((List.range es.length).map fun i => c.peek i) (c.advance es.length) := by
  induction es generalizing c with
  | nil => exact congrArg _ c.advance_zero.symm
  | cons e es ih =>
    have hread : read c = .ok c.peek c.advance := rfl
    rw [List.mapM_cons, bind_of_ok _ hread, bind_of_ok _ (ih c.advance), Cursor.advance_advance,
      Nat.add_comm, List.length_cons, List.range_succ_eq_map, List.map_cons, List.map_map]
    simp only [Cursor.peek_advance, Nat.add_comm 1]
    rfl

/-- Wherever a cursor stands in its tokens, consuming agrees with looking ahead. Expectations that
are met by the tokens peeked are met when these are consumed, and it is these that one read after
the other gives; those that are not met move nothing and are blamed on the first token that fails.
-/
theorem ensure_lookahead {last : Token} (hlast : tokens.getLast? = some last)
    (hend : last.kind = .endOfInput) : ∃ start, Cursor.ofTokens tokens = .ok start ∧
      start.index = 0 ∧ ∀ c, start.Reaches c → ∀ es : List Expectation,
        (∀ n, tokens[min (c.index + n) (tokens.length - 1)]? = some (c.peek n)) ∧
        expects es c = .ok (c.expects es) c ∧
        (c.expects es = true ↔
          ∀ (i : Nat) (e : Expectation), es[i]? = some e → e.isMetBy (c.peek i) = true) ∧
        (c.expects es = true → ∃ c',
          ensure es c = .ok ((List.range es.length).map fun i => c.peek i) c' ∧
          (es.mapM fun _ => read) c = ensure es c ∧
          c'.index = min (c.index + es.length) (tokens.length - 1)) ∧
        (c.expects es = false → ∃ (i : Nat) (e : Expectation), es[i]? = some e ∧
          e.isMetBy (c.peek i) = false ∧
          (∀ j < i, ∀ e', es[j]? = some e' → e'.isMetBy (c.peek j) = true) ∧
          ensure es c = .error ((Problem.unexpectedToken e (c.peek i)).at (c.peek i).position) c ∧
          (Problem.unexpectedToken e (c.peek i)).code = "E_UNEXPECTED_TOKEN") := by
  obtain ⟨start, hstart⟩ := Cursor.exists_ofTokens hlast hend
  refine ⟨start, hstart, Cursor.index_of_ofTokens hstart, ?_⟩
  intro c hc es
  have hin := (Cursor.standsIn_of_ofTokens hstart).reaches hc
  refine ⟨hin.getElem?_peek, rfl, Cursor.expects_iff, ?_, ?_⟩
  · intro hmet
    have hnone := Option.isNone_iff_eq_none.mp hmet
    have hensure : ensure es c =
        .ok ((List.range es.length).map fun i => c.peek i) (c.advance es.length) := by
      rw [ensure, hnone]
    exact ⟨_, hensure, (mapM_read c es).trans hensure.symm, hin.index_advance es.length⟩
  · intro hmet
    cases hmismatch : c.mismatch? es with
    | none =>
      rw [Cursor.expects, hmismatch] at hmet
      cases hmet
    | some p =>
      obtain ⟨i, he, hp, hfails, hbefore⟩ := Cursor.exists_of_mismatch? hmismatch
      rw [← hp] at hfails
      refine ⟨i, p.1, he, hfails, hbefore, ?_, rfl⟩
      rw [ensure, hmismatch, hp]

theorem ensure_lookahead_sample :
    let word : Token := ⟨.identifier, "new", .start none⟩
    let last := Token.endOfInput (.start none)
    let met : List Expectation := [.word "new", .anythingBut .rightBrace, .ofKind .endOfInput]
    let unmet : List Expectation := [.word "new", .anythingBut .rightBrace, .ofKind .semicolon]
    last.kind = .endOfInput ∧ ∃ start, Cursor.ofTokens [word, last] = .ok start ∧
      (∃ c, ensure met start = .ok [word, last, last] c ∧ c.index = 1) ∧
      ensure unmet start = .error ((Problem.unexpectedToken (.ofKind .semicolon) last).at
        last.position) start := by
  intro word last met unmet
  have hlast : [word, last].getLast? = some last := rfl
  have hend : last.kind = .endOfInput := rfl
  obtain ⟨start, hstart, -, h⟩ := ensure_lookahead hlast hend
  refine ⟨hend, start, hstart, ?_, ?_⟩ <;> obtain rfl := Except.ok.inj hstart
  · obtain ⟨-, -, -, hmet, -⟩ := h _ .start met
    obtain ⟨c, hensure, -, hindex⟩ := hmet rfl
    exact ⟨c, hensure, hindex⟩
  · obtain ⟨-, -, -, -, hunmet⟩ := h _ .start unmet
    obtain ⟨i, e, he, hfails, -, hensure, -⟩ := hunmet rfl
    obtain ⟨hi, -⟩ := List.getElem?_eq_some_iff.mp he
    have hi : i = 0 ∨ i = 1 ∨ i = 2 := by
      have hlength : unmet.length = 3 := rfl
      omega
    rcases hi with rfl | rfl | rfl <;> cases he
    · exact absurd hfails (by decide)
    · exact absurd hfails (by decide)
    · exact hensure

end CursorM

end ResourceScript

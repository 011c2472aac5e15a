import Mathlib.Algebra.Order.Ring.Nat
import ResourceScript.Proofs.Outcome
import ResourceScript.Script.Cursor
import ResourceScript.Script.Tokenize

namespace ResourceScript

variable {cs : List Char} {position : Position} {tokens : List Token}

theorem tokenizeFrom_getLast (h : tokenizeFrom position cs = .ok tokens) :
    ∃ last, tokens.getLast? = some last ∧ last.kind = .endOfInput := by
  fun_induction tokenizeFrom position cs generalizing tokens with
  | case1 position =>
    cases h
    exact ⟨_, rfl, rfl⟩
  | case2 => cases h
  | case3 => cases h
  | case4 position c cs piece hp text hlong =>
    rename_i ih
    obtain ⟨rest, hrest, h⟩ := Except.bind_eq_ok.mp h
    obtain ⟨last, hlast, hk⟩ := ih hrest
    split at h
    · cases h
      exact ⟨last, hlast, hk⟩
    · cases h
      exact ⟨last, by rw [List.getLast?_cons, hlast]; rfl, hk⟩

theorem ofTokens_tokenize (h : tokenize source path = .ok tokens) :
    ∃ c, Cursor.ofTokens tokens = .ok c := by
  obtain ⟨last, hlast, hk⟩ := tokenizeFrom_getLast h
  rw [Cursor.ofTokens, hlast]
  exact ⟨_, dif_pos hk⟩

namespace Piece

theorem hexValue?_lt (h : Text.hexValue? c = some v) : v < 16 := by
  simp only [Text.hexValue?, Bool.and_eq_true, decide_eq_true_eq] at h
  split at h
  case isTrue hc =>
    have hn : c.toNat ≤ 57 := hc.2
    obtain rfl : c.toNat - 48 = v := Option.some.inj h
    omega
  case isFalse =>
    split at h
    case isTrue hc =>
      have hn : c.toNat ≤ 102 := hc.2
      obtain rfl : c.toNat - 97 + 10 = v := Option.some.inj h
      omega
    case isFalse =>
      split at h
      case isTrue hc =>
        have hn : c.toNat ≤ 70 := hc.2
        obtain rfl : c.toNat - 65 + 10 = v := Option.some.inj h
        omega
      case isFalse => cases h

end Piece

end ResourceScript

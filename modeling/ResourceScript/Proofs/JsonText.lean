import ResourceScript.Document.OfJson
import ResourceScript.Document.Shown
import ResourceScript.Json.Reader
import ResourceScript.Proofs.Lexicon

namespace ResourceScript

/-- A document as JSON spells it, with integers that can all be shown. -/
inductive Document.Plain : Document → Prop where
  | null : Plain .null
  | bool : Plain (.bool b)
  | int : Text.isShown n = true → Plain (.int n)
  | float : Plain (.float x)
  | text : Plain (.text s)
  | list : (∀ d ∈ items, Plain d) → Plain (.list items)
  | map : (∀ m ∈ members, ∃ s, m.1 = .text s) → (∀ m ∈ members, Plain m.2) → Plain (.map members)

namespace Json

def Spelled (j : Json) : Prop :=
  (Document.ofJson j).Plain

def isOpening (c : Char) : Bool :=
  c == '[' || c == '\x7b'

/-- The flaws that a text can have inside a number of brackets: an integer of too many digits and
too many brackets are the only faults. -/
inductive Accounts (depth : Nat) (cs : List Char) : Document.Flaw → Prop where
  | malformed : Accounts depth cs .malformed
  | digits : ds <:+: cs → (∀ c ∈ ds, '0' ≤ c ∧ c ≤ '9') → Text.decimalLimit < ds.length →
      Accounts depth cs (.fault .noSuchValue)
  | brackets : depthLimit < depth + cs.countP isOpening → Accounts depth cs (.fault .nestedTooDeep)

/-- A reader comes to a value and the end of its text behind it, or to a flaw. -/
def Yields (depth : Nat) (cs : List Char) (P : α → Prop) :
    Except Document.Flaw (α × List Char) → Prop
  | .ok (a, rest) => P a ∧ rest <:+ cs
  | .error flaw => Accounts depth cs flaw

theorem Accounts.of_suffix (h : Accounts depth rest flaw) (hs : rest <:+ cs) :
    Accounts depth cs flaw := by
  cases h with
  | malformed => exact .malformed
  | digits hi hall hlong => exact .digits (hi.trans hs.isInfix) hall hlong
  | brackets hlt =>
    exact .brackets (hlt.trans_le (Nat.add_le_add_left (hs.sublist.countP_le) depth))

theorem Accounts.inside (h : Accounts (depth + 1) cs flaw) (hc : isOpening c = true) :
    Accounts depth (c :: cs) flaw := by
  cases h with
  | malformed => exact .malformed
  | digits hi hall hlong => exact .digits (List.infix_cons hi) hall hlong
  | brackets hlt =>
    refine .brackets ?_
    rw [List.countP_cons_of_pos hc]
    omega

namespace Yields

variable {e : Except Document.Flaw (α × List Char)}

theorem of_suffix (h : Yields depth rest P e) (hs : rest <:+ cs) : Yields depth cs P e := by
  cases e with
  | ok found => exact ⟨h.1, h.2.trans hs⟩
  | error flaw => exact Accounts.of_suffix h hs

theorem bracketed (hc : isOpening c = true) (h : Yields (depth + 1) cs P e) :
    Yields depth (c :: cs) P
      (if depth = depthLimit then .error (.fault .nestedTooDeep) else e) := by
  split
  case isTrue hdepth =>
    refine Accounts.brackets ?_
    rw [hdepth, List.countP_cons_of_pos hc]
    omega
  · cases e with
    | ok found => exact ⟨h.1, h.2.trans (List.suffix_cons c cs)⟩
    | error flaw => exact Accounts.inside h hc

theorem bind {f : α × List Char → Except Document.Flaw (β × List Char)} (h : Yields depth cs P e)
    (hf : ∀ a rest, P a → rest <:+ cs → Yields depth cs Q (f (a, rest))) :
    Yields depth cs Q (e >>= f) := by
  cases e with
  | ok found => exact hf found.1 found.2 h.1 h.2
  | error flaw => exact h

theorem orMalformed {found : Option (α × List Char)}
    (h : ∀ a rest, found = some (a, rest) → P a ∧ rest <:+ cs) :
    Yields depth cs P (orMalformed found) := by
  cases found with
  | none => exact Accounts.malformed
  | some found => exact h found.1 found.2 rfl

end Yields

theorem skipBlank_suffix (cs : List Char) : skipBlank cs <:+ cs :=
  List.dropWhile_suffix _

theorem after?_suffix (h : after? lead cs = some rest) : rest <:+ cs := by
  induction lead generalizing cs with
  | nil =>
    cases h
    exact List.suffix_rfl
  | cons l lead ih =>
    cases cs with
    | nil => cases h
    | cons c cs =>
      rw [after?] at h
      split at h
      · exact (ih h).trans (List.suffix_cons c cs)
      · cases h

theorem readUnit_suffix (h : readUnit cs = some (n, rest)) : rest <:+ cs := by
  unfold readUnit at h
  split at h
  · obtain ⟨digits, -, h⟩ := Option.bind_eq_some_iff.mp h
    cases h
    exact ⟨[_, _, _, _], rfl⟩
  · cases h

theorem readEscape_suffix (h : readEscape cs = some (g, rest)) : rest <:+ cs := by
  unfold readEscape at h
  split at h
  case h_9 cs =>
    obtain ⟨⟨high, behind⟩, hhigh, h⟩ := Option.bind_eq_some_iff.mp h
    have hbehind : behind <:+ 'u' :: cs := (readUnit_suffix hhigh).trans (List.suffix_cons _ cs)
    dsimp only at h
    split at h
    · split at h
      case h_1 low last hlow =>
        split at h
        · cases h
          obtain ⟨marked, hmarked, hlow⟩ := Option.bind_eq_some_iff.mp hlow
          exact ((readUnit_suffix hlow).trans (after?_suffix hmarked)).trans hbehind
        · cases h
          exact hbehind
      · cases h
        exact hbehind
    · cases h
      exact hbehind
  case h_10 => cases h
  all_goals
    cases h
    exact List.suffix_cons _ _

theorem readString_suffix (h : readString fuel cs = some (t, rest)) : rest <:+ cs := by
  induction fuel generalizing cs t with
  | zero => cases h
  | succ fuel ih =>
    cases cs with
    | nil => cases h
    | cons c cs =>
      rw [readString] at h
      split at h
      · cases h
        exact List.suffix_cons c rest
      · split at h
        · obtain ⟨⟨g, behind⟩, hescape, h⟩ := Option.bind_eq_some_iff.mp h
          obtain ⟨⟨t, last⟩, hstring, h⟩ := Option.bind_eq_some_iff.mp h
          cases h
          exact ((ih hstring).trans (readEscape_suffix hescape)).trans (List.suffix_cons c cs)
        · split at h
          · cases h
          · obtain ⟨⟨t, last⟩, hstring, h⟩ := Option.bind_eq_some_iff.mp h
            cases h
            exact (ih hstring).trans (List.suffix_cons c cs)

theorem readWord_yields (hv : P value) (word : String) (cs : List Char) :
    Yields depth cs P (readWord word value cs) := by
  refine Yields.orMalformed fun a rest h => ?_
  obtain ⟨rest, hrest, h⟩ := Option.map_eq_some_iff.mp h
  cases h
  exact ⟨hv, after?_suffix hrest⟩

theorem takeDigits_suffix (h : Text.takeDigits cs = (ds, rest)) : rest <:+ cs := by
  cases h
  exact List.dropWhile_suffix _

theorem readFraction_suffix (h : readFraction cs = (ds, rest)) : rest <:+ cs := by
  unfold readFraction at h
  split at h
  case h_1 cs =>
    split at h
    · cases h
      exact List.suffix_rfl
    · exact (takeDigits_suffix h).trans (List.suffix_cons _ cs)
  case h_2 =>
    cases h
    exact List.suffix_rfl

theorem splitSign_suffix (cs : List Char) : (Text.splitSign cs).2 <:+ cs := by
  unfold Text.splitSign
  split
  · exact List.suffix_cons _ _
  · exact List.suffix_cons _ _
  · exact List.suffix_rfl

theorem readExponent_suffix (h : readExponent cs = (n, rest)) : rest <:+ cs := by
  unfold readExponent at h
  split at h
  case h_1 c cs =>
    split at h
    · dsimp only at h
      split at h
      · cases h
        exact List.suffix_rfl
      case h_2 ds last _ hlast =>
        cases h
        exact ((takeDigits_suffix hlast).trans (splitSign_suffix cs)).trans (List.suffix_cons c cs)
    · cases h
      exact List.suffix_rfl
  case h_2 =>
    cases h
    exact List.suffix_rfl

theorem takeDigits_isInfix (h : Text.takeDigits cs = (ds, rest)) :
    (∀ d ∈ ds, d < 10) ∧
      ∃ digits, digits <:+: cs ∧ (∀ c ∈ digits, '0' ≤ c ∧ c ≤ '9') ∧ digits.length = ds.length := by
  cases h
  have hall : ∀ c ∈ cs.takeWhile fun c => '0' ≤ c && c ≤ '9', '0' ≤ c ∧ c ≤ '9' := by
    intro c hc
    simpa using List.mem_takeWhile_imp hc
  refine ⟨?_, _, (List.takeWhile_prefix _).isInfix, hall, (List.length_map _).symm⟩
  rintro d hd
  obtain ⟨c, hc, rfl⟩ := List.mem_map.mp hd
  have hle : c.toNat ≤ '9'.toNat := (hall c hc).2
  exact (Nat.sub_le_sub_right hle _).trans_lt (by decide)

theorem isShown_of_decimal? (h : Text.decimal? ds = some n) (hds : ∀ d ∈ ds, d < 10) :
    Text.isShown (n : Int) = true := by
  rw [Text.isShown_iff]
  unfold Text.decimal? at h
  -- The limit stays a variable, for nothing is to compute its power.
  generalize Text.decimalLimit = limit at h ⊢
  split at h
  case isTrue hlength =>
    cases h
    have hlt := Nat.ofDigits_lt_base_pow_length (b := 10) (l := ds.reverse) (by decide)
      fun d hd => hds d (List.mem_reverse.mp hd)
    rw [Piece.ofDigits_reverse, List.length_reverse] at hlt
    exact hlt.trans_le (Nat.pow_le_pow_right (by decide) hlength)
  · cases h

theorem readMagnitude_yields (negative : Bool) (cs : List Char) :
    Yields depth cs Spelled (readMagnitude negative cs) := by
  unfold readMagnitude
  split
  · exact Accounts.malformed
  case h_2 ds behind hne htake =>
    obtain ⟨hds, digits, hinfix, hall, hlength⟩ := takeDigits_isInfix htake
    have hbehind := takeDigits_suffix htake
    dsimp only
    -- The whole part is short or made of the digits at the front.
    obtain ⟨whole, last, hfront, hwhole, hlong, hlast⟩ : ∃ whole last,
        (if (ds.head? == some 0) = true then ([0], cs.drop 1) else (ds, behind)) = (whole, last) ∧
          (∀ d ∈ whole, d < 10) ∧
          (Text.decimalLimit < whole.length → Text.decimalLimit < ds.length) ∧ last <:+ cs := by
      split
      · exact ⟨[0], cs.drop 1, rfl, by simp, fun h => absurd h (by decide), List.drop_suffix 1 cs⟩
      · exact ⟨ds, behind, rfl, hds, id, hbehind⟩
    rw [hfront]
    have hrest : (readExponent (readFraction last).2).2 <:+ cs :=
      ((readExponent_suffix rfl).trans (readFraction_suffix rfl)).trans hlast
    split
    · split
      case h_1 n hn =>
        have hshown := isShown_of_decimal? hn hwhole
        refine ⟨.int ?_, hrest⟩
        split
        · exact (Text.isShown_neg n).trans hshown
        · exact hshown
      case h_2 hn =>
        have hmany : Text.decimalLimit < whole.length := by simpa [Text.decimal?] using hn
        exact Accounts.digits hinfix hall (hlength ▸ hlong hmany)
    · exact ⟨.float, hrest⟩

theorem ofJsonItems_eq_map (items : List Json) :
    Document.ofJsonItems items = items.map Document.ofJson := by
  induction items with
  | nil => rfl
  | cons item items ih => rw [Document.ofJsonItems, ih, List.map_cons]

theorem ofJsonMembers_eq_map (members : List (String × Json)) :
    Document.ofJsonMembers members = members.map fun m => (.text m.1, Document.ofJson m.2) := by
  induction members with
  | nil => rfl
  | cons m members ih => rw [Document.ofJsonMembers, ih, List.map_cons]

theorem spelled_arr (h : ∀ j ∈ items, Spelled j) :
    Spelled (.arr items) := by
  rw [Spelled, Document.ofJson, ofJsonItems_eq_map]
  exact .list (List.forall_mem_map.mpr h)

theorem spelled_obj {members : List (String × Json)}
    (h : ∀ m ∈ members, Spelled m.2) : Spelled (.obj members) := by
  rw [Spelled, Document.ofJson, ofJsonMembers_eq_map]
  exact .map (List.forall_mem_map.mpr fun m _ => ⟨m.1, rfl⟩) (List.forall_mem_map.mpr h)

theorem forall_mem_mergeMembers {P : α → Prop} {members added : List (String × α)}
    (h : ∀ m ∈ members, P m.2) (ha : ∀ m ∈ added, P m.2) :
    ∀ m ∈ mergeMembers members added, P m.2 := by
  induction added generalizing members with
  | nil => exact h
  | cons m added ih =>
    rw [List.forall_mem_cons] at ha
    exact ih (forall_mem_setMember h ha.1) ha.2

section Values

variable {fuel : Nat}

theorem readItems_yields
    (hvalue : ∀ depth cs, Yields depth cs Spelled (readValue depth fuel cs))
    (hitems : ∀ depth cs,
      Yields depth cs (fun items => ∀ j ∈ items, Spelled j) (readItems depth fuel cs))
    (depth : Nat) (cs : List Char) :
    Yields depth cs (fun items => ∀ j ∈ items, Spelled j)
      (readItems depth (fuel + 1) cs) := by
  rw [readItems]
  apply ((hvalue depth _).of_suffix (skipBlank_suffix cs)).bind
  intro j behind hj hbehind
  have hblank := (skipBlank_suffix behind).trans hbehind
  dsimp only
  split
  case h_1 last heq =>
    rw [heq] at hblank
    apply ((hitems depth last).of_suffix ((List.suffix_cons _ last).trans hblank)).bind
    intro items rest hall hrest
    exact ⟨List.forall_mem_cons.mpr ⟨hj, hall⟩, hrest⟩
  case h_2 last heq =>
    rw [heq] at hblank
    exact ⟨List.forall_mem_singleton.mpr hj, (List.suffix_cons _ last).trans hblank⟩
  · exact Accounts.malformed

theorem readMembers_yields
    (hvalue : ∀ depth cs, Yields depth cs Spelled (readValue depth fuel cs))
    (hmembers : ∀ depth cs, Yields depth cs (fun members => ∀ m ∈ members, Spelled m.2)
      (readMembers depth fuel cs))
    (depth : Nat) (cs : List Char) :
    Yields depth cs (fun members => ∀ m ∈ members, Spelled m.2)
      (readMembers depth (fuel + 1) cs) := by
  rw [readMembers]
  have hfirst := skipBlank_suffix cs
  split
  case h_1 quoted heq =>
    rw [heq] at hfirst
    have hkey : Yields depth cs (fun _ => True)
        (orMalformed (readString (quoted.length + 1) quoted)) :=
      Yields.orMalformed fun t rest h =>
        ⟨trivial, (readString_suffix h).trans ((List.suffix_cons _ quoted).trans hfirst)⟩
    apply hkey.bind
    intro key behind _ hbehind
    have hcolon := (skipBlank_suffix behind).trans hbehind
    dsimp only
    split
    case h_1 behind heq =>
      rw [heq] at hcolon
      have hsuffix := (skipBlank_suffix behind).trans ((List.suffix_cons _ behind).trans hcolon)
      apply ((hvalue depth _).of_suffix hsuffix).bind
      intro j behind hj hbehind
      have hblank := (skipBlank_suffix behind).trans hbehind
      dsimp only
      split
      case h_1 last heq =>
        rw [heq] at hblank
        apply ((hmembers depth last).of_suffix ((List.suffix_cons _ last).trans hblank)).bind
        intro members rest hall hrest
        exact ⟨List.forall_mem_cons.mpr ⟨hj, hall⟩, hrest⟩
      case h_2 last heq =>
        rw [heq] at hblank
        exact ⟨List.forall_mem_singleton.mpr hj, (List.suffix_cons _ last).trans hblank⟩
      · exact Accounts.malformed
    · exact Accounts.malformed
  · exact Accounts.malformed

theorem readValue_yields
    (hitems : ∀ depth cs,
      Yields depth cs (fun items => ∀ j ∈ items, Spelled j) (readItems depth fuel cs))
    (hmembers : ∀ depth cs, Yields depth cs (fun members => ∀ m ∈ members, Spelled m.2)
      (readMembers depth fuel cs))
    (depth : Nat) (cs : List Char) :
    Yields depth cs Spelled (readValue depth (fuel + 1) cs) := by
  unfold readValue
  split
  case h_1 quoted =>
    refine Yields.orMalformed fun j rest h => ?_
    obtain ⟨⟨t, rest⟩, hstring, h⟩ := Option.map_eq_some_iff.mp h
    cases h
    exact ⟨.text, (readString_suffix hstring).trans (List.suffix_cons _ quoted)⟩
  case h_2 behind =>
    refine Yields.bracketed rfl ?_
    have hblank := skipBlank_suffix behind
    split
    case h_1 rest heq =>
      rw [heq] at hblank
      exact ⟨spelled_obj (List.forall_mem_nil _), (List.suffix_cons _ rest).trans hblank⟩
    · apply ((hmembers (depth + 1) _).of_suffix hblank).bind
      intro found rest hfound hrest
      have hmerged : ∀ m ∈ mergeMembers [] found, Spelled m.2 :=
        forall_mem_mergeMembers (List.forall_mem_nil _) hfound
      exact ⟨spelled_obj hmerged, hrest⟩
  case h_3 behind =>
    refine Yields.bracketed rfl ?_
    have hblank := skipBlank_suffix behind
    split
    case h_1 rest heq =>
      rw [heq] at hblank
      exact ⟨spelled_arr (List.forall_mem_nil _), (List.suffix_cons _ rest).trans hblank⟩
    · apply ((hitems (depth + 1) _).of_suffix hblank).bind
      intro found rest hfound hrest
      exact ⟨spelled_arr hfound, hrest⟩
  case h_4 => exact readWord_yields .null _ _
  case h_5 => exact readWord_yields .bool _ _
  case h_6 => exact readWord_yields .bool _ _
  case h_7 => exact readWord_yields .float _ _
  case h_8 => exact readWord_yields .float _ _
  case h_9 => exact readWord_yields .float _ _
  case h_10 behind _ =>
    exact (readMagnitude_yields true behind).of_suffix (List.suffix_cons _ behind)
  · exact readMagnitude_yields false cs

end Values

theorem readers_yield (fuel : Nat) :
    (∀ depth cs, Yields depth cs Spelled (readValue depth fuel cs)) ∧
    (∀ depth cs, Yields depth cs (fun items => ∀ j ∈ items, Spelled j)
      (readItems depth fuel cs)) ∧
    ∀ depth cs, Yields depth cs (fun members => ∀ m ∈ members, Spelled m.2)
      (readMembers depth fuel cs) := by
  induction fuel with
  | zero => exact ⟨fun _ _ => .malformed, fun _ _ => .malformed, fun _ _ => .malformed⟩
  | succ fuel ih =>
    obtain ⟨hvalue, hitems, hmembers⟩ := ih
    exact ⟨readValue_yields hitems hmembers, readItems_yields hvalue hitems,
      readMembers_yields hvalue hmembers⟩

theorem spelled_of_parse (h : parse cs = .ok j) : Spelled j := by
  obtain ⟨⟨value, rest⟩, hread, h⟩ := Except.bind_eq_ok.mp h
  have hyields := (readers_yield (2 * cs.length + 2)).1 0 (skipBlank cs)
  rw [hread] at hyields
  dsimp only at h
  split at h
  · cases h
    exact hyields.1
  · cases h

theorem accounts_of_parse (h : parse cs = .error flaw) : Accounts 0 cs flaw := by
  have hyields := ((readers_yield (2 * cs.length + 2)).1 0 _).of_suffix (skipBlank_suffix cs)
  obtain hread | ⟨⟨value, rest⟩, -, h⟩ := Except.bind_eq_error.mp h
  · rwa [hread] at hyields
  · dsimp only at h
    split at h
    · cases h
    · cases h
      exact .malformed

end Json

end ResourceScript

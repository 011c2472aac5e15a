import Mathlib.Data.List.Nodup
import ResourceScript.Proofs.Contents

namespace ResourceScript

variable {settings : Settings} {t : TypeTemplate} {s s' : Session} {x : Resource} {ts : List Token}
  {parts parts' : List (List Token)} {vs ws : List (String × Value)} {header : Header}

section

variable {α β : Type} [BEq α] [LawfulBEq α] {l l' : List (α × β)} {k : α} {b : β}

theorem lookup_eq_some_iff_mem (hn : (l.map (·.1)).Nodup) : l.lookup k = some b ↔ (k, b) ∈ l := by
  induction l with
  | nil => simp
  | cons p l ih =>
    obtain ⟨k', b'⟩ := p
    rw [List.map_cons, List.nodup_cons] at hn
    obtain ⟨hk', hn⟩ := hn
    by_cases hk : k = k'
    · subst hk
      have hnone : (k, b) ∉ l := fun h => hk' (List.mem_map.mpr ⟨_, h, rfl⟩)
      simp [hnone, eq_comm]
    · have hne : (k == k') = false := beq_eq_false_iff_ne.mpr hk
      rw [List.lookup_cons, hne, ih hn]
      simp [hk]

theorem lookup_of_perm (h : l.Perm l') (hn : (l.map (·.1)).Nodup) (k : α) :
    l.lookup k = l'.lookup k := by
  have hn' : (l'.map (·.1)).Nodup := (h.map _).nodup_iff.mp hn
  apply Option.ext
  intro b
  rw [lookup_eq_some_iff_mem hn, lookup_eq_some_iff_mem hn', h.mem_iff]

end

/-- What an assignment writes on its own: the bytes of the slots that it fills. -/
def writtenBy (settings : Settings) (t : TypeTemplate) (assignment : List Token) :
    List (String × Bytes) :=
  match Declaration.assignment settings (.ofTemplate t 0 []) (.alone t assignment) with
  | .error _ _ => []
  | .ok draft _ => draft.written

namespace TypeTemplate

def written (t : TypeTemplate) (values : List (String × Value)) : List (String × Bytes) :=
  values.map fun p => (p.1, (t.typeOf p.1).encode p.2)

theorem keys_written (values : List (String × Value)) :
    (t.written values).map (·.1) = values.map (·.1) := by
  rw [written, List.map_map]
  rfl

theorem bytesOf_eq_lookup (values : List (String × Value)) (e : Entry) :
    t.bytesOf values e = ((t.written values).lookup e.name).getD e.type.default := by
  rw [written, lookup_written, bytesOf]
  cases values.lookup e.name <;> rfl

end TypeTemplate

theorem writtenBy_of_assignment (h : Grammar.Assignment settings t ts vs)
    (hn : (vs.map (·.1)).Nodup) : writtenBy settings t ts = t.written vs := by
  have hn : ((([] : List (String × Value)) ++ vs).map (·.1)).Nodup := hn
  obtain ⟨journal, hj⟩ := Declaration.assignment_of_moves (s := .alone t ts) rfl h
    (Cursor.moves_rest _) hn 0 none
  have hdraft : t.draft 0 none [] = .ofTemplate t 0 [] := rfl
  rw [hdraft] at hj
  simp only [writtenBy, hj]
  rfl

namespace Grammar

theorem Assignments.exists_parts (h : Assignments settings t ts vs) (hn : (vs.map (·.1)).Nodup) :
    ∃ parts : List (List Token), ts = parts.flatten ∧
      t.written vs = parts.flatMap (writtenBy settings t) ∧
      ∀ part ∈ parts, ∃ ws, Assignment settings t part ws ∧
        t.written ws = writtenBy settings t part := by
  induction h with
  | nil => exact ⟨[], rfl, rfl, List.forall_mem_nil _⟩
  | @cons ts vs us ws ha _ ih =>
    rw [List.map_append] at hn
    obtain ⟨parts, rfl, hwritten, hparts⟩ := ih hn.of_append_right
    have hpart : t.written vs = writtenBy settings t ts :=
      (writtenBy_of_assignment ha hn.of_append_left).symm
    refine ⟨ts :: parts, rfl, ?_, List.forall_mem_cons.mpr ⟨⟨vs, ha, hpart⟩, hparts⟩⟩
    rw [List.flatMap_cons, ← hwritten, ← hpart, TypeTemplate.written, List.map_append]
    rfl

theorem Assignments.of_parts (h : ∀ part ∈ parts, ∃ ws, Assignment settings t part ws ∧
      t.written ws = writtenBy settings t part) :
    ∃ vs, Assignments settings t parts.flatten vs ∧
      t.written vs = parts.flatMap (writtenBy settings t) := by
  induction parts with
  | nil => exact ⟨[], .nil, rfl⟩
  | cons part parts ih =>
    obtain ⟨⟨ws, ha, hws⟩, hparts⟩ := List.forall_mem_cons.mp h
    obtain ⟨vs, hvs, hwritten⟩ := ih hparts
    refine ⟨ws ++ vs, .cons ha hvs, ?_⟩
    rw [List.flatMap_cons, ← hwritten, ← hws, TypeTemplate.written, List.map_append]
    rfl

end Grammar

theorem TypeTemplate.resource_of_perm (h : (t.written vs).Perm (t.written ws))
    (hn : (ws.map (·.1)).Nodup) (id : Int) (name : Option Text) :
    t.resource id name vs =
      { t.resource id name ws with slots := (t.written vs).map (·.1) } := by
  have hn' : ((t.written vs).map (·.1)).Nodup := by
    rw [(h.map _).nodup_iff, keys_written]
    exact hn
  have hbytes : t.bytesOf vs = t.bytesOf ws := by
    funext e
    rw [bytesOf_eq_lookup, bytesOf_eq_lookup, lookup_of_perm h hn']
  rw [resource, resource, hbytes, keys_written]

/-- The parts of a declaration: a header, and assignments in braces. -/
structure Parts where
  header : List Token
  left : Token
  assignments : List (List Token)
  right : Token
  header_plain : ∀ token ∈ header, token.kind.isBrace = false
  left_kind : left.kind = .leftBrace
  isAssignment : ∀ assignment ∈ assignments, IsAssignment assignment
  right_kind : right.kind = .rightBrace

namespace Parts

def tokens (d : Parts) : List Token :=
  d.header ++ d.left :: (d.assignments.flatten ++ [d.right])

def written (d : Parts) (settings : Settings) (t : TypeTemplate) : List (String × Bytes) :=
  d.assignments.flatMap (writtenBy settings t)

theorem closedBy_assignments (h : ∀ ts ∈ parts, IsAssignment ts) (right : Token) :
    closedBy .semicolon (parts.flatten ++ [right]) = parts ++ [[right]] := by
  induction parts with
  | nil => rfl
  | cons part parts ih =>
    obtain ⟨⟨name, equals, value, semicolon, rfl, hname, hequals, hsemicolon, hvalue⟩, hparts⟩ :=
      List.forall_mem_cons.mp h
    have hopen : ∀ token ∈ name :: equals :: value, token.kind ≠ .semicolon := by
      refine List.forall_mem_cons.mpr ⟨by simp [hname], List.forall_mem_cons.mpr
        ⟨by simp [hequals], fun token ht hk => ?_⟩⟩
      have hof := hvalue token ht
      rw [hk] at hof
      cases hof
    have hclosed := closedBy_cons hopen hsemicolon (parts.flatten ++ [right])
    rw [ih hparts] at hclosed
    simpa using hclosed

theorem eq_of_tokens {d d' : Parts} (h : d.tokens = d'.tokens) : d = d' := by
  obtain ⟨header, left, assignments, right, hheader, hleft, hassignments, hright⟩ := d
  obtain ⟨header', left', assignments', right', hheader', hleft', hassignments', hright'⟩ := d'
  have hfront (front : List Token) (brace : Token) (rest : List Token)
      (hfront : ∀ token ∈ front, token.kind.isBrace = false) (hbrace : brace.kind = .leftBrace) :
      (front ++ brace :: rest).takeWhile (!·.kind.isBrace) = front := by
    rw [List.takeWhile_append_of_pos (by simpa using hfront),
      List.takeWhile_cons_of_neg (by simp [hbrace, LexemeKind.isBrace]), List.append_nil]
  have hsame := congrArg (List.takeWhile fun token => !token.kind.isBrace) h
  rw [tokens, tokens, hfront _ _ _ hheader hleft, hfront _ _ _ hheader' hleft'] at hsame
  obtain rfl : header = header' := hsame
  obtain ⟨rfl, hbody⟩ := List.cons.inj (List.append_cancel_left h)
  have hclosed := congrArg (closedBy .semicolon) hbody
  rw [closedBy_assignments hassignments, closedBy_assignments hassignments'] at hclosed
  obtain ⟨rfl, hlast⟩ := List.append_inj' hclosed rfl
  cases hlast
  rfl

end Parts

namespace Grammar

theorem Declaration.exists_parts (h : Declaration settings t ts header vs) :
    ∃ d : Parts, ts = d.tokens ∧ t.written vs = d.written settings t ∧ (vs.map (·.1)).Nodup ∧
      ∀ d' : Parts, d'.header = d.header → d'.assignments.Perm d.assignments → ∃ ws,
        Declaration settings t d'.tokens header ws ∧ t.written ws = d'.written settings t ∧
        (t.written ws).Perm (t.written vs) := by
  cases h with
  | @mk front _ _ _ hheader hbody =>
  cases hbody with
  | @mk _ _ left right hleft hassignments hn hright =>
  obtain ⟨assignments, rfl, hwritten, hparts⟩ := hassignments.exists_parts hn
  have hform : ∀ assignment ∈ assignments, IsAssignment assignment := by
    intro assignment hmem
    obtain ⟨ws, ha, -⟩ := hparts assignment hmem
    exact ha.isAssignment
  refine ⟨⟨front, left, assignments, right, hheader.not_isBrace, hleft, hform, hright⟩, rfl,
    hwritten, hn, ?_⟩
  intro d' hfront hperm
  obtain ⟨ws, hws, hwritten'⟩ :=
    Assignments.of_parts fun part hpart => hparts part (hperm.mem_iff.mp hpart)
  have hsame : (t.written ws).Perm (t.written vs) := by
    rw [hwritten, hwritten']
    exact hperm.flatMap_right _
  have hn' : (ws.map (·.1)).Nodup := by
    rw [← TypeTemplate.keys_written (t := t), (hsame.map _).nodup_iff, TypeTemplate.keys_written]
    exact hn
  have hheader' : HeaderTokens d'.header header := by rwa [hfront]
  exact ⟨ws, .mk hheader' (.mk d'.left_kind hws hn' d'.right_kind), hwritten', hsame⟩

end Grammar

namespace Declaration

theorem read_of_spelling {behind : List Token} {id : Int} (ht : s.registry.active? = some t)
    (hd : Grammar.Declaration settings t ts header vs)
    (hid : Grammar.TakesId (s.registry.idsOf t.name) header.id id)
    (h : s.cursor.rest.map Token.spelling = (ts ++ behind).map Token.spelling) :
    ∃ s', read settings s = .ok (t.resource id header.name vs) s' ∧
      s'.registry = s.registry.withClaim t.name id ∧
      s'.cursor.rest.map Token.spelling = behind.map Token.spelling := by
  -- The rules tell about the tokens of `ts`; reading carries over to what is spelt like them.
  let c : Cursor := { s.cursor with rest := ts ++ behind }
  have hmoves : c.Moves ts (c.advance ts.length) := Cursor.moves_advance rfl
  obtain ⟨journal, hread⟩ := read_of_moves (s := { s with cursor := c }) ht hd hmoves hid
  have halike : Session.Alike (fun _ _ => True) { s with cursor := c } s :=
    ⟨⟨Token.forall₂_alike_iff.mpr h.symm, Token.alike_iff.mpr rfl⟩, rfl⟩
  obtain ⟨x, s', hread', rfl, hs'⟩ := agree_read.of_ok halike hread
  refine ⟨s', hread', hs'.registry, ?_⟩
  rw [← Token.forall₂_alike_iff.mp hs'.cursor.rest]
  simp [c, Cursor.advance]

/-- What a declaration gives does not hang on the order of its assignments: with them in any order
and the same ids taken, it gives the same resource, its slots told in that order. The bytes of an
entry are those that an assignment writes for it, or else its default. -/
theorem read_permuted (ht : s.registry.active? = some t) (h : read settings s = .ok x s') :
    ∃ d : Parts, s.cursor.Moves d.tokens s'.cursor ∧
      x.slots = (d.written settings t).map (·.1) ∧
      x.data = t.entries.flatMap
        (fun e => ((d.written settings t).lookup e.name).getD e.type.default) ∧
      ∀ d' : Parts, d'.header = d.header → d'.assignments.Perm d.assignments →
        ∀ s₁ behind, s₁.registry = s.registry →
          s₁.cursor.rest.map Token.spelling = (d'.tokens ++ behind).map Token.spelling →
          ∃ s₂, read settings s₁ =
              .ok { x with slots := (d'.written settings t).map (·.1) } s₂ ∧
            s₂.registry = s'.registry ∧
            s₂.cursor.rest.map Token.spelling = behind.map Token.spelling := by
  have hready : Ready s t s.cursor.stream := ⟨ht, List.suffix_refl _⟩
  obtain ⟨ts, header, vs, id, hmoves, -, hd, hid, hregistry, rfl⟩ := (ends_read hready).of_ok h
  obtain ⟨d, rfl, hwritten, hn, hpermute⟩ := hd.exists_parts
  refine ⟨d, hmoves, ?_, ?_, ?_⟩
  · rw [← hwritten, TypeTemplate.keys_written]
    rfl
  · have hbytes := funext (TypeTemplate.bytesOf_eq_lookup (t := t) vs)
    rw [← hwritten, TypeTemplate.resource, hbytes]
  · intro d' hheader hperm s₁ behind hs₁ hspelling
    obtain ⟨ws, hd', hwritten', hsame⟩ := hpermute d' hheader hperm
    have ht₁ : s₁.registry.active? = some t := by rw [hs₁, ht]
    obtain ⟨s₂, hread, hregistry', hrest⟩ := read_of_spelling ht₁ hd' (by rwa [hs₁]) hspelling
    refine ⟨s₂, ?_, ?_, hrest⟩
    · rw [hread, TypeTemplate.resource_of_perm hsame hn, hwritten']
    · rw [hregistry', hs₁, hregistry]

def Sample.orderedParts : Parts where
  header := Sample.header
  left := Sample.tokenOf .leftBrace
  assignments := [Sample.assignment, Sample.labelAssignment]
  right := Sample.tokenOf .rightBrace
  header_plain := by decide
  left_kind := rfl
  isAssignment := List.forall_mem_cons.mpr ⟨Sample.assignment_spells.isAssignment,
    List.forall_mem_singleton.mpr Sample.labelAssignment_spells.isAssignment⟩
  right_kind := rfl

def Sample.permutedParts : Parts where
  header := Sample.header
  left := Sample.tokenOf .leftBrace
  assignments := [Sample.labelAssignment, Sample.assignment]
  right := Sample.tokenOf .rightBrace
  header_plain := by decide
  left_kind := rfl
  isAssignment := List.forall_mem_cons.mpr ⟨Sample.labelAssignment_spells.isAssignment,
    List.forall_mem_singleton.mpr Sample.assignment_spells.isAssignment⟩
  right_kind := rfl

theorem Sample.orderedParts_spell : Grammar.Declaration Sample.settings Sample.note
    Sample.orderedParts.tokens ⟨some 200, none⟩
    [("rank", .integer 7), ("label", .bytes [110, 111])] :=
  .mk Sample.header_spells (.mk rfl
    (.cons Sample.assignment_spells (.cons Sample.labelAssignment_spells .nil)) (by decide) rfl)

theorem read_permuted_sample :
    let x := Sample.note.resource 200 none [("rank", .integer 7), ("label", .bytes [110, 111])]
    Sample.permutedParts.assignments.Perm Sample.orderedParts.assignments ∧
      x.data = [0, 7, 110, 111, 0] ∧ x.slots = ["rank", "label"] ∧
      (∃ s', read Sample.settings (Sample.sessionOf Sample.orderedParts.tokens) = .ok x s') ∧
      ∃ s', read Sample.settings (Sample.sessionOf Sample.permutedParts.tokens) =
        .ok { x with slots := ["label", "rank"] } s' := by
  intro x
  have ht : (Sample.sessionOf Sample.orderedParts.tokens).registry.active? = some Sample.note := rfl
  have hid : Grammar.TakesId (Sample.registry.idsOf "Note") (some 200) 200 := ⟨rfl, by decide⟩
  have hperm : Sample.permutedParts.assignments.Perm Sample.orderedParts.assignments :=
    List.Perm.swap _ _ _
  obtain ⟨journal, hread⟩ := read_of_moves ht Sample.orderedParts_spell (Cursor.moves_rest _) hid
  obtain ⟨d, hmoves, -, -, hpermuted⟩ := read_permuted ht hread
  have htokens : d.tokens = Sample.orderedParts.tokens := by
    have hrest : Sample.orderedParts.tokens = d.tokens ++ [] := hmoves.rest
    rw [hrest, List.append_nil]
  obtain rfl := Parts.eq_of_tokens htokens
  obtain ⟨s₂, hread₂, -, -⟩ := hpermuted Sample.permutedParts rfl hperm
    (Sample.sessionOf Sample.permutedParts.tokens) [] rfl (by rw [List.append_nil]; rfl)
  refine ⟨hperm, by decide +kernel, rfl, ⟨_, hread⟩, s₂, ?_⟩
  have hslots : (Sample.permutedParts.written Sample.settings Sample.note).map (·.1) =
      ["label", "rank"] := by decide +kernel
  rw [hread₂, hslots]

end Declaration

end ResourceScript

import Mathlib.Data.List.Forall2
import Mathlib.Order.Bounds.Basic
import ResourceScript.Proofs.Codec
import ResourceScript.Resource.Declaration

namespace ResourceScript

/-- The integer that a token denotes for a slot: its own, or that of the constant it names. -/
def Slot.integer? (slot : Slot) (token : Token) : Option Int :=
  match token.lexeme with
  | .integer n => some n
  | .identifier =>
    match slot.symbols.lookup token.text with
    | some (.integer n) => some n
    | _ => none
  | _ => none

/-- The text that a token denotes for a slot: its own, or that of the constant it names. -/
def Slot.text? (slot : Slot) (token : Token) : Option Text :=
  match token.lexeme with
  | .string s => some s
  | .identifier =>
    match slot.symbols.lookup token.text with
    | some (.text s) => some (Text.ofString s)
    | _ => none
  | _ => none

def Token.IsWord (token : Token) (s : String) : Prop :=
  token.kind = .identifier ∧ token.text = s

namespace Settings

def encode? (settings : Settings) (s : Text) : Option Bytes :=
  (Encoder.ofName? settings.encoders settings.encoding).bind fun encoder => (encoder s).toOption

/-- The contents of the file that a text names, provided that the file lies below the root and is
not larger than the limit. -/
def import? (settings : Settings) (name : Text) : Option Bytes :=
  match sourcePath settings.files.working settings.root name with
  | .ok path => (settings.files.readWithin settings.limit path).toOption
  | .error _ => none

end Settings

namespace Grammar

/-- Bars and terms behind the first term of a mask. -/
inductive MoreTerms (slot : Slot) : List Token → List Int → Prop where
  | nil : MoreTerms slot [] []
  | cons : bar.kind = .pipe → slot.integer? token = some n → MoreTerms slot ts ns →
      MoreTerms slot (bar :: token :: ts) (n :: ns)

theorem MoreTerms.snoc (h : MoreTerms slot ts ns) (hbar : bar.kind = .pipe)
    (ht : slot.integer? token = some n) : MoreTerms slot (ts ++ [bar, token]) (ns ++ [n]) := by
  induction h with
  | nil => exact .cons hbar ht .nil
  | cons hb hn _ ih => exact .cons hb hn ih

/-- Nothing, or terms with bars between them. -/
inductive MaskTerms (slot : Slot) : List Token → List Int → Prop where
  | none : MaskTerms slot [] []
  | some : slot.integer? token = some n → MoreTerms slot ts ns →
      MaskTerms slot (token :: ts) (n :: ns)

def maskOf (ns : List Int) : Nat :=
  ns.foldl (fun mask n => mask ||| maskBits n) 0

theorem maskOf_singleton (n : Int) : maskOf [n] = maskBits n :=
  Nat.zero_or _

theorem maskOf_snoc (ns : List Int) (n : Int) : maskOf (ns ++ [n]) = maskOf ns ||| maskBits n :=
  List.foldl_append

/-- The tokens that a directive asks for as the value of a slot, and what they denote. There are
none for images, nor for raw bytes without a directive. -/
inductive SlotValue (settings : Settings) (t : TypeTemplate) (f : FieldTemplate) (slot : Slot) :
    Directive → List Token → Value → Prop where
  | reference : token.lexeme = .resourceId n → (t.typeOf slot.name).holdsReference →
      SlotValue settings t f slot .reference [token] (.integer n)
  | text : token.lexeme = .string s → settings.encode? s = some b →
      SlotValue settings t f slot .file [token] (.bytes b)
  | contents : word.IsWord "import" → token.lexeme = .string s → settings.import? s = some b →
      SlotValue settings t f slot .file [word, token] (.bytes b)
  | mask : f.others = [] → (t.typeOf slot.name).unsigned? = some i → MaskTerms slot tokens ns →
      SlotValue settings t f slot .bitmask tokens (.integer (maskOf ns % i.width.count : Nat))
  | integer : slot.integer? token = some n →
      SlotValue settings t f slot .positional [token] (.integer n)
  | string : slot.text? token = some s → settings.encode? s = some b →
      t.typeOf slot.name ≠ .raw → SlotValue settings t f slot .positional [token] (.bytes b)
  | rectangle : tokens.length = 4 →
      List.Forall₂ (fun token n => token.lexeme = .integer n) tokens ns →
      SlotValue settings t f slot .positional tokens (.rectangle ns)

/-- Values of slots one after the other, each of them one that the entry of its slot holds. -/
inductive SlotValues (settings : Settings) (t : TypeTemplate) (f : FieldTemplate)
    (directive : Directive) : List Slot → List Token → List (String × Value) → Prop where
  | nil : SlotValues settings t f directive [] [] []
  | cons {slot : Slot} : SlotValue settings t f slot directive ts v →
      v.Admissible (t.typeOf slot.name) → SlotValues settings t f directive slots us vs →
      SlotValues settings t f directive (slot :: slots) (ts ++ us) ((slot.name, v) :: vs)

/-- An assignment, with the values of the slots that it fills. -/
inductive Assignment (settings : Settings) (t : TypeTemplate) :
    List Token → List (String × Value) → Prop where
  | mk : name.kind = .identifier → t.field? name.text = some f →
      Directive.ofField f none = .ok directive → equals.kind = .equals →
      SlotValues settings t f directive (directive.slots f) ts vs → semicolon.kind = .semicolon →
      Assignment settings t (name :: equals :: (ts ++ [semicolon])) vs

inductive Assignments (settings : Settings) (t : TypeTemplate) :
    List Token → List (String × Value) → Prop where
  | nil : Assignments settings t [] []
  | cons : Assignment settings t ts vs → Assignments settings t us ws →
      Assignments settings t (ts ++ us) (vs ++ ws)

section

variable {settings : Settings} {t : TypeTemplate} {ts us : List Token}
  {vs ws : List (String × Value)}

theorem SlotValues.admissible (h : SlotValues settings t f directive slots ts vs) :
    ∀ p ∈ vs, p.2.Admissible (t.typeOf p.1) := by
  induction h with
  | nil => exact List.forall_mem_nil _
  | cons _ ha _ ih => exact List.forall_mem_cons.mpr ⟨ha, ih⟩

theorem Assignment.admissible (h : Assignment settings t ts vs) :
    ∀ p ∈ vs, p.2.Admissible (t.typeOf p.1) := by
  cases h with
  | mk _ _ _ _ hvs _ => exact hvs.admissible

theorem Assignment.exists_head (h : Assignment settings t ts vs) :
    ∃ name us, ts = name :: us ∧ name.kind = .identifier := by
  cases h with
  | mk hk _ _ _ _ _ => exact ⟨_, _, rfl, hk⟩

theorem Assignments.admissible (h : Assignments settings t ts vs) :
    ∀ p ∈ vs, p.2.Admissible (t.typeOf p.1) := by
  induction h with
  | nil => exact List.forall_mem_nil _
  | cons ha _ ih => exact List.forall_mem_append.mpr ⟨ha.admissible, ih⟩

theorem Assignments.snoc (h : Assignments settings t ts vs) (ha : Assignment settings t us ws) :
    Assignments settings t (ts ++ us) (vs ++ ws) := by
  induction h with
  | nil =>
    have hone := Assignments.cons ha .nil
    rwa [List.append_nil, List.append_nil] at hone
  | cons hb _ ih =>
    rw [List.append_assoc, List.append_assoc]
    exact .cons hb ih

end

/-- What stands between the parentheses of a header. -/
inductive HeaderContents : List Token → Header → Prop where
  | nothing : HeaderContents [] ⟨none, none⟩
  | id : token.lexeme.idNumber? = some n → HeaderContents [token] ⟨some n, none⟩
  | idAndName : token.lexeme.idNumber? = some n → comma.kind = .comma → name.lexeme = .string s →
      HeaderContents [token, comma, name] ⟨some n, some s⟩
  | name : token.lexeme = .string s → HeaderContents [token] ⟨none, some s⟩

inductive HeaderTokens : List Token → Header → Prop where
  | mk : word.IsWord "new" → left.kind = .leftParen → HeaderContents ts header →
      right.kind = .rightParen → HeaderTokens (word :: left :: (ts ++ [right])) header

theorem HeaderTokens.exists_number (h : HeaderTokens ts header) (hn : header.id = some n) :
    ∃ token ∈ ts, token.lexeme.idNumber? = some n := by
  cases h with
  | mk _ _ hcontents _ =>
    cases hcontents with
    | nothing => cases hn
    | id hid =>
      cases hn
      exact ⟨_, by simp, hid⟩
    | idAndName hid _ _ =>
      cases hn
      exact ⟨_, by simp, hid⟩
    | name _ => cases hn

/-- The assignments of a declaration in their braces. No slot is filled twice. -/
inductive Body (settings : Settings) (t : TypeTemplate) :
    List Token → List (String × Value) → Prop where
  | mk : left.kind = .leftBrace → Assignments settings t ts vs → (vs.map (·.1)).Nodup →
      right.kind = .rightBrace → Body settings t (left :: (ts ++ [right])) vs

theorem Body.admissible (h : Body settings t ts vs) :
    ∀ p ∈ vs, p.2.Admissible (t.typeOf p.1) := by
  cases h with
  | mk _ hvs _ _ => exact hvs.admissible

inductive Declaration (settings : Settings) (t : TypeTemplate) :
    List Token → Header → List (String × Value) → Prop where
  | mk : HeaderTokens ts header → Body settings t us vs →
      Declaration settings t (ts ++ us) header vs

theorem Declaration.admissible (h : Declaration settings t ts header values) :
    ∀ p ∈ values, p.2.Admissible (t.typeOf p.1) := by
  cases h with
  | mk _ hb => exact hb.admissible

theorem Declaration.exists_head (h : Declaration settings t ts header values) :
    ∃ word us, ts = word :: us ∧ word.IsWord "new" := by
  cases h with
  | mk hh _ =>
    cases hh with
    | mk hword _ _ _ => exact ⟨_, _, rfl, hword⟩

/-- The id that a resource takes: the one asked for, which must not be taken, or else the least free
one. -/
def TakesId (taken : List Int) : Option Int → Int → Prop
  | some n, id => id = n ∧ n ∉ taken
  | none, id => IsLeast {n | firstFreeId ≤ n ∧ n ∉ taken} id

end Grammar

namespace TypeTemplate

/-- The bytes of an entry: those of its value, or those it has without one. -/
def bytesOf (t : TypeTemplate) (values : List (String × Value)) (e : Entry) : Bytes :=
  match values.lookup e.name with
  | some v => (t.typeOf e.name).encode v
  | none => e.type.default

def resource (t : TypeTemplate) (id : Int) (name : Option Text) (values : List (String × Value)) :
    Resource where
  code := t.code
  id
  name := name.getD []
  data := t.entries.flatMap (t.bytesOf values)
  slots := values.map (·.1)

end TypeTemplate

namespace Grammar

/-- A script is a sequence of declarations; each takes its id after those before it. -/
inductive Script (settings : Settings) (t : TypeTemplate) :
    List Int → List Token → List Resource → Prop where
  | nil : Script settings t taken [] []
  | cons {id : Int} : Declaration settings t ts header values → TakesId taken header.id id →
      Script settings t (id :: taken) us resources →
      Script settings t taken (ts ++ us) (t.resource id header.name values :: resources)

theorem Script.snoc {id : Int} (h : Script settings t taken ts resources)
    (hd : Declaration settings t us header values)
    (hid : TakesId ((resources.map (·.id)).reverse ++ taken) header.id id) :
    Script settings t taken (ts ++ us) (resources ++ [t.resource id header.name values]) := by
  induction h with
  | nil =>
    have hone := Script.cons hd hid .nil
    rwa [List.append_nil] at hone
  | cons hb hb' _ ih =>
    rw [List.map_cons, List.reverse_cons, List.append_assoc] at hid
    rw [List.append_assoc, List.cons_append]
    exact .cons hb hb' (ih hid)

end Grammar

namespace Sample

def rank : Slot where
  name := "rank"
  type := .integer ⟨.two, false⟩

def label : Slot where
  name := "label"
  type := .terminated

def note : TypeTemplate where
  name := "Note"
  code := "Note"
  entries := [⟨rank.name, rank.type⟩, ⟨label.name, label.type⟩]
  fields := [{ name := "rank", first := rank }, { name := "label", first := label }]

def registry : Registry where
  types := [note]
  active? := note
  claims := []

def settings : Settings where
  encoding := "ascii"
  root := Path.ofString "."
  limit := 0
  files := { working := [], nodes := [] }

def tokenOf (lexeme : Lexeme) (name : String := "") : Token :=
  ⟨lexeme, name, .start none⟩

def header : List Token :=
  [tokenOf .identifier "new", tokenOf .leftParen, tokenOf (.resourceId 200), tokenOf .rightParen]

def assignment : List Token :=
  [tokenOf .identifier "rank", tokenOf .equals, tokenOf (.integer 7), tokenOf .semicolon]

/-- The tokens of a declaration that gives its resource an id and a rank. -/
def declaration : List Token :=
  header ++ (tokenOf .leftBrace :: (assignment ++ [tokenOf .rightBrace]))

def session : Session where
  cursor := { rest := declaration, last := tokenOf .endOfInput, last_kind := rfl }
  registry

def sessionOf (tokens : List Token) : Session :=
  { session with cursor := { session.cursor with rest := tokens } }

theorem header_spells : Grammar.HeaderTokens header ⟨some 200, none⟩ :=
  .mk ⟨rfl, rfl⟩ rfl (.id (rfl : (tokenOf (.resourceId 200)).lexeme.idNumber? = some 200)) rfl

def labelAssignment : List Token :=
  [tokenOf .identifier "label", tokenOf .equals, tokenOf (.string [.char 'n', .char 'o']),
    tokenOf .semicolon]

theorem assignment_spells :
    Grammar.Assignment settings note assignment [("rank", .integer 7)] := by
  have hvalue : Grammar.SlotValue settings note ⟨"rank", rank, [], none⟩ rank .positional
      [tokenOf (.integer 7)] (.integer 7) := .integer rfl
  exact .mk rfl rfl rfl rfl (.cons hvalue (by decide) .nil) rfl

theorem labelAssignment_spells :
    Grammar.Assignment settings note labelAssignment [("label", .bytes [110, 111])] := by
  have hvalue : Grammar.SlotValue settings note ⟨"label", label, [], none⟩ label .positional
      [tokenOf (.string [.char 'n', .char 'o'])] (.bytes [110, 111]) :=
    .string rfl (by decide +kernel) (by decide)
  exact .mk rfl rfl rfl rfl (.cons hvalue (by decide) .nil) rfl

theorem declaration_spells : Grammar.Declaration settings note declaration ⟨some 200, none⟩
    [("rank", .integer 7)] :=
  .mk header_spells (.mk rfl (.cons assignment_spells .nil) (by decide) rfl)

end Sample

end ResourceScript

import ResourceScript.Proofs.JsonText
import ResourceScript.Template.Load

namespace ResourceScript

namespace Document

variable {parts : Parts} {d : Document}

/-- What has no parts and yet counts as something: truth, and numbers other than zero. -/
def IsBare : Document → Prop
  | bool b => b = true
  | int n => n ≠ 0
  | float x => (x == 0.0) = false
  | _ => False

theorem IsBare.isNothing (h : d.IsBare) : d.isNothing = false := by
  cases d with
  | bool => simpa [Document.isNothing, IsBare] using h
  | int => simpa [Document.isNothing, IsBare] using h
  | float => exact h
  | _ => exact h.elim

theorem obstacleAmong_eq_none {part : Nat → Nat → Option Fault} {items : List Document}
    (h : ∀ d ∈ items, obstacleWith part depth d = none) :
    obstacleAmong part depth items = none := by
  induction items with
  | nil => rw [obstacleAmong]
  | cons item items ih =>
    rw [List.forall_mem_cons] at h
    rw [obstacleAmong, h.1, ih h.2]
    rfl

theorem obstacleAmongMembers_eq_none {part : Nat → Nat → Option Fault}
    {members : List (Document × Document)}
    (hk : ∀ m ∈ members, obstacleWith part depth m.1 = none)
    (hv : ∀ m ∈ members, obstacleWith part depth m.2 = none) :
    obstacleAmongMembers part depth members = none := by
  induction members with
  | nil => rw [obstacleAmongMembers]
  | cons m members ih =>
    rw [List.forall_mem_cons] at hk hv
    rw [obstacleAmongMembers, hk.1, hv.1, ih hk.2 hv.2]
    rfl

namespace Plain

theorem whole (h : d.Plain) : d.whole parts = d := by
  cases h <;> rfl

theorem obstacle (h : d.Plain) (part : Nat → Nat → Option Fault) (depth : Nat) :
    obstacleWith part depth d = none := by
  induction h generalizing depth with
  | int hn => rw [obstacleWith, if_pos hn]
  | list _ ih =>
    rw [obstacleWith]
    exact obstacleAmong_eq_none fun d hd => ih d hd (depth + 1)
  | map hk _ ih =>
    rw [obstacleWith]
    refine obstacleAmongMembers_eq_none (fun m hm => ?_) fun m hm => ih m hm (depth + 1)
    obtain ⟨s, hs⟩ := hk m hm
    rw [hs, obstacleWith] <;> exact nofun
  | _ => rw [obstacleWith] <;> exact nofun

theorem shown (h : d.Plain) : d.shown parts = .ok (d.display parts) := by
  rw [Document.shown, obstacleInside, h.obstacle]

theorem of_member (h : (Document.map members).Plain) (hd : member? members key = some d) :
    d.Plain := by
  obtain ⟨m, hm, rfl⟩ := Option.map_eq_some_iff.mp hd
  cases h with
  | map _ hv => exact hv m (List.mem_of_find?_eq_some hm)

end Plain

end Document

namespace TypeTemplate

variable {parts : Document.Parts} {members : Members} {d : Document} {entries : List Entry}
  {fields : List FieldTemplate} {bare long : Prop}

/-- A member that is neither absent nor nothing, and has no elements. -/
def HasBare (members : Members) (key : String) : Prop :=
  ∃ d, Document.member? members key = some d ∧ d.IsBare

def HasItem (members : Members) (key : String) (inner : Members) : Prop :=
  ∃ items, Document.member? members key = some (.list items) ∧ .map inner ∈ items

/-- A type with something bare where a list is to stand. -/
inductive LacksList (members : Members) : Prop where
  | template : HasBare members "template" → LacksList members
  | fields : HasBare members "fields" → LacksList members
  | values : HasItem members "fields" field → HasBare field "values" → LacksList members

/-- An entry with a size of more digits than are read. -/
def IsOverlong (parts : Document.Parts) (entry : Members) : Prop :=
  ∃ d digits, Document.member? entry "type" = some d ∧
    ValueType.sizeDigits? (Text.strip (d.display parts).toList) = some digits ∧
    Text.decimalLimit < digits.length

/-- The members of a type that a configuration describes. -/
def Describes (root : Document) (members : Members) : Prop :=
  ∃ all, root = .map all ∧ HasItem all "types" members

/-- The failures of loading: problems of the template, and faults for which there is a cause. -/
inductive Blames (bare long : Prop) : Failure → Prop where
  | template : Blames bare long (Problem.template flaw).anywhere
  | bare : bare → Blames bare long (.fault .notIterable)
  | long : long → Blames bare long (.fault .noSuchValue)

/-- A part of loading comes to a value with `P`, or to a failure that has its cause. -/
def Settles (bare long : Prop) (P : α → Prop) : Except Failure α → Prop
  | .ok a => P a
  | .error e => Blames bare long e

namespace Settles

theorem flawed : Settles bare long P (flawed flaw) :=
  Blames.template

theorem bind {e : Except Failure α} {f : α → Except Failure β} (h : Settles bare long P e)
    (hf : ∀ a, P a → Settles bare long Q (f a)) : Settles bare long Q (e >>= f) := by
  cases e with
  | ok a => exact hf a h
  | error x => exact h

theorem imp {e : Except Failure α} (h : Settles bare long P e) (hp : ∀ a, P a → Q a) :
    Settles bare long Q e := by
  cases e with
  | ok a => exact hp a h
  | error x => exact h

theorem foldlM {f : β → α → Except Failure β} {xs : List α}
    (hf : ∀ x ∈ xs, ∀ b, Settles bare long (fun _ => True) (f b x)) (b : β) :
    Settles bare long (fun _ => True) (xs.foldlM f b) := by
  induction xs generalizing b with
  | nil => exact trivial
  | cons x xs ih =>
    rw [List.forall_mem_cons] at hf
    rw [List.foldlM_cons]
    exact (hf.1 b).bind fun b' _ => ih hf.2 b'

theorem mapM {f : α → Except Failure β} {xs : List α}
    (hf : ∀ x ∈ xs, Settles bare long (fun _ => True) (f x)) :
    Settles bare long (fun _ => True) (xs.mapM f) := by
  induction xs with
  | nil => exact trivial
  | cons x xs ih =>
    rw [List.forall_mem_cons] at hf
    rw [List.mapM_cons]
    exact hf.1.bind fun y _ => (ih hf.2).bind fun ys _ => trivial

end Settles

theorem membersOr_settles (hd : d.Plain) :
    Settles bare long (fun members => d = .map members) (membersOr parts flaw d) := by
  rw [membersOr, hd.whole]
  split
  · exact rfl
  · exact Settles.flawed

theorem nameOrMembers_settles (hd : d.Plain) : Settles bare long
    (fun members => d = .map members ∨ ∃ s, members = [(.text "name", .text s)])
    (nameOrMembers parts flaw d) := by
  unfold nameOrMembers
  split
  case h_1 s => exact .inr ⟨s, rfl⟩
  case h_2 =>
    apply (membersOr_settles hd).imp
    intro members hmembers
    exact .inl hmembers

theorem required_settles (members : Members) (key place : String) : Settles bare long
    (fun d => Document.member? members key = some d) (required members key place) := by
  unfold required
  split
  · exact Settles.flawed
  · exact Settles.flawed
  case h_3 s hs =>
    split
    · exact Settles.flawed
    · exact hs
  case h_4 d _ _ hd => exact hd

theorem nameOf_plain (hd : d.Plain) : nameOf parts d = .ok (d.display parts) := by
  rw [nameOf, hd.shown]
  rfl

theorem settles_requiredName {f : String → Except Failure β} (hm : (Document.map members).Plain)
    (hf : ∀ d, Document.member? members key = some d →
      Settles bare long Q (f (d.display parts))) :
    Settles bare long Q (required members key place >>= fun d => nameOf parts d >>= f) := by
  apply (required_settles members key place).bind
  intro d hd
  rw [nameOf_plain (Document.Plain.of_member hm hd)]
  exact hf d hd

theorem elements_eq_error_iff (hd : d.Plain) (hn : d.isNothing = false) :
    elements parts d = .error e ↔ e = .fault .notIterable ∧ d.IsBare := by
  rw [elements, hd.whole]
  have hbare {e : Failure} {p : Prop} (hp : p) :
      (.error (.fault .notIterable) : Except Failure (List Document)) = .error e ↔
        e = .fault .notIterable ∧ p :=
    ⟨fun h => ⟨(Except.error.inj h).symm, hp⟩, fun h => congrArg Except.error h.1.symm⟩
  cases hd with
  | null => cases hn
  | bool => exact hbare (by simpa [Document.isNothing, Document.IsBare] using hn)
  | int => exact hbare (by simpa [Document.isNothing, Document.IsBare] using hn)
  | float => exact hbare hn
  | text => exact ⟨nofun, fun h => h.2.elim⟩
  | list => exact ⟨nofun, fun h => h.2.elim⟩
  | map => exact ⟨nofun, fun h => h.2.elim⟩

theorem elementsOf_eq_error_iff (hm : (Document.map members).Plain) :
    elementsOf parts members key = .error e ↔ e = .fault .notIterable ∧ HasBare members key := by
  unfold elementsOf HasBare
  cases hd : Document.member? members key with
  | none => simp
  | some d =>
    have hplain := Document.Plain.of_member hm hd
    simp only [hplain.whole, Option.some.injEq, exists_eq_left']
    split
    case isTrue hn => exact ⟨nofun, fun h => absurd h.2.isNothing (by simp [hn])⟩
    case isFalse hn => exact elements_eq_error_iff hplain (by simpa using hn)

theorem elementsOf_ok (hm : (Document.map members).Plain)
    (h : elementsOf parts members key = .ok items) (hd : d ∈ items) :
    d.Plain ∧ ∀ inner, d = .map inner → HasItem members key inner := by
  unfold elementsOf at h
  split at h
  · cases h
    cases hd
  case h_2 whole hwhole =>
    have hplain := Document.Plain.of_member hm hwhole
    rw [hplain.whole] at h
    split at h
    · cases h
      cases hd
    · rw [elements, hplain.whole] at h
      cases hplain with
      | text =>
        cases h
        obtain ⟨c, -, rfl⟩ := List.mem_map.mp hd
        exact ⟨.text, nofun⟩
      | list hall =>
        cases h
        refine ⟨hall d hd, ?_⟩
        rintro inner rfl
        exact ⟨items, hwhole, hd⟩
      | map hkeys _ =>
        cases h
        obtain ⟨m, hmem, rfl⟩ := List.mem_map.mp hd
        obtain ⟨s, hs⟩ := hkeys m hmem
        rw [hs]
        exact ⟨.text, nofun⟩
      | _ => cases h

theorem elementsOf_settles (hm : (Document.map members).Plain) (hb : HasBare members key → bare) :
    Settles bare long
      (fun items => ∀ d ∈ items, d.Plain ∧ ∀ inner, d = .map inner → HasItem members key inner)
      (elementsOf parts members key) := by
  cases h : elementsOf parts members key with
  | error e =>
    obtain ⟨rfl, hbare⟩ := (elementsOf_eq_error_iff hm).mp h
    exact .bare (hb hbare)
  | ok items => exact fun d hd => elementsOf_ok hm h hd

theorem symbolsOfMembers_settles (hd : ∀ d, found = some d → d.Plain) :
    Settles bare long (fun _ => True) (symbolsOfMembers parts place found) := by
  unfold symbolsOfMembers
  split
  · exact trivial
  · exact trivial
  case h_3 d _ =>
    apply (membersOr_settles (hd d rfl)).bind
    rintro members rfl
    refine Settles.foldlM (fun m hm symbols => ?_) []
    have hname : ∃ name, nameOf parts m.1 = .ok name := by
      cases hd _ rfl with
      | map hkeys _ =>
        obtain ⟨s, hs⟩ := hkeys m hm
        exact ⟨_, nameOf_plain (hs ▸ .text)⟩
    obtain ⟨name, hname⟩ := hname
    have hvalue : Settles bare long (fun _ => True) (symbolValue parts place m.1 m.2) := by
      unfold symbolValue
      split
      · exact trivial
      · exact trivial
      · rw [hname]
        exact Settles.flawed
    apply hvalue.bind
    intro value _
    rw [hname]
    exact trivial

theorem ofName?_eq_none {name : String} (h : ValueType.ofName? name = none) : ∃ digits,
    ValueType.sizeDigits? (Text.strip name.toList) = some digits ∧
      Text.decimalLimit < digits.length := by
  unfold ValueType.ofName? at h
  dsimp only at h
  split at h
  · cases h
  · split at h
    case h_1 digits hdigits =>
      refine ⟨digits, hdigits, ?_⟩
      simpa [Text.decimal?] using h
    · cases h

theorem entryOf_settles (hd : d.Plain)
    (hl : ∀ entry, d = .map entry → IsOverlong parts entry → long) :
    Settles bare long (fun _ => True) (entryOf parts place entries (d, index)) := by
  apply (membersOr_settles hd).bind
  rintro members rfl
  apply settles_requiredName hd
  intro named _
  split
  · exact Settles.flawed
  · apply settles_requiredName hd
    intro typed htyped
    unfold valueType
    split
    · exact trivial
    case h_2 hnone =>
      obtain ⟨digits, hdigits, hlong⟩ := ofName?_eq_none hnone
      exact Blames.long (hl members rfl ⟨typed, digits, htyped, hdigits, hlong⟩)

theorem plain_named (s : String) : (Document.map [(.text "name", .text s)]).Plain := by
  refine .map ?_ ?_
  · simp
  · simpa using .text

theorem slotOf_settles (hd : d.Plain) :
    Settles bare long (fun _ => True) (slotOf parts entries place d) := by
  apply (nameOrMembers_settles hd).bind
  intro members hmembers
  have hm : (Document.map members).Plain := by
    obtain rfl | ⟨s, rfl⟩ := hmembers
    · exact hd
    · exact plain_named s
  apply settles_requiredName hm
  intro named _
  split
  · exact Settles.flawed
  · apply (symbolsOfMembers_settles fun d hd => Document.Plain.of_member hm hd).bind
    intro symbols _
    exact trivial

theorem tagOf_settles (hm : (Document.map members).Plain) :
    Settles bare long (fun _ => True) (tagOf parts members) := by
  have hgiven {key d} (h : (Document.member? members key).filter
      (fun d => !(d.whole parts).isNothing) = some d) : nameOf parts d = .ok (d.display parts) :=
    nameOf_plain (Document.Plain.of_member hm (Option.filter_eq_some_iff.mp h).1)
  unfold tagOf
  dsimp only
  split
  case h_1 d _ h =>
    rw [hgiven h]
    exact trivial
  case h_2 d _ h =>
    rw [hgiven h]
    exact trivial
  · exact trivial

theorem fieldOf_settles (hd : d.Plain)
    (hb : ∀ field, d = .map field → HasBare field "values" → bare) :
    Settles bare long (fun _ => True) (fieldOf parts place entries fields (d, index)) := by
  apply (nameOrMembers_settles hd).bind
  intro members hmembers
  have hm : (Document.map members).Plain ∧ (HasBare members "values" → bare) := by
    obtain rfl | ⟨s, rfl⟩ := hmembers
    · exact ⟨hd, hb members rfl⟩
    · refine ⟨plain_named s, ?_⟩
      rintro ⟨d, hd, -⟩
      simp [Document.member?, Document.key?] at hd
  apply settles_requiredName hm.1
  intro named _
  split
  · exact Settles.flawed
  · apply (elementsOf_settles hm.1 hm.2).bind
    intro values hvalues
    have hplain {named : String} :
        ∀ d ∈ if values.isEmpty then [.text named] else values, d.Plain := by
      split
      · exact List.forall_mem_singleton.mpr .text
      · exact fun d hd => (hvalues d hd).1
    apply (Settles.mapM fun d hd => slotOf_settles (hplain d hd)).bind
    intro slots _
    apply (tagOf_settles hm.1).bind
    intro tag _
    cases slots with
    | nil => exact Settles.flawed
    | cons first others => exact trivial

theorem ofMembers_settles (hm : (Document.map members).Plain) (hb : LacksList members → bare)
    (hl : (∃ entry, HasItem members "template" entry ∧ IsOverlong parts entry) → long) :
    Settles bare long (fun _ => True) (ofMembers parts members index) := by
  apply settles_requiredName hm
  intro named _
  have hcode : ((Document.member? members "code").getD (.text (named.display parts))).Plain := by
    cases h : Document.member? members "code" with
    | none => exact .text
    | some d => exact Document.Plain.of_member hm h
  dsimp only
  rw [nameOf_plain hcode]
  apply (elementsOf_settles hm fun h => hb (.template h)).bind
  intro items hitems
  refine (Settles.foldlM (fun item hitem entries => ?_) []).bind fun entries _ => ?_
  · obtain ⟨hplain, hitem⟩ := hitems item.1 (List.fst_mem_of_mem_zipIdx hitem)
    exact entryOf_settles hplain fun entry heq hlong => hl ⟨entry, hitem entry heq, hlong⟩
  · apply (elementsOf_settles hm fun h => hb (.fields h)).bind
    intro items hitems
    refine (Settles.foldlM (fun item hitem fields => ?_) []).bind fun fields _ => trivial
    obtain ⟨hplain, hitem⟩ := hitems item.1 (List.fst_mem_of_mem_zipIdx hitem)
    exact fieldOf_settles hplain fun field heq hbare => hb (.values (hitem field heq) hbare)

theorem allOfConfiguration_settles {c : Configuration} (hc : c.root.Plain)
    (hb : ∀ members, Describes c.root members → LacksList members → bare)
    (hl : ∀ members, Describes c.root members →
      (∃ entry, HasItem members "template" entry ∧ IsOverlong c.parts entry) → long) :
    Settles bare long (fun _ => True) (allOfConfiguration c) := by
  apply (membersOr_settles hc).bind
  intro all hroot
  rw [hroot] at hc
  cases htypes : Document.member? all "types" with
  | none => exact Settles.flawed
  | some d =>
    have hd := Document.Plain.of_member hc htypes
    dsimp only
    rw [Option.map_some, hd.whole]
    cases hd with
    | list hall =>
      refine Settles.mapM fun item hitem => ?_
      have hitem := List.fst_mem_of_mem_zipIdx hitem
      apply (membersOr_settles (hall item.1 hitem)).bind
      intro members hmembers
      have hdescribes : Describes c.root members :=
        ⟨all, hroot, _, htypes, hmembers ▸ hitem⟩
      exact ofMembers_settles (hmembers ▸ hall item.1 hitem) (hb members hdescribes)
        (hl members hdescribes)
    | _ => exact Settles.flawed

end TypeTemplate

/-- The faults of loading that no problem of the template reports: of the JSON in the file, or of a
type that it describes. -/
inductive Fault.Escapes (source : String) : Fault → Prop where
  | unread : Json.parse source.toList = .error (.fault cause) →
      Json.Accounts 0 source.toList (.fault cause) → Escapes source cause
  | bare : Json.parse source.toList = .ok j → TypeTemplate.Describes (.ofJson j) members →
      TypeTemplate.LacksList members → Escapes source .notIterable
  | overlong : Json.parse source.toList = .ok j → TypeTemplate.Describes (.ofJson j) members →
      TypeTemplate.HasItem members "template" entry → TypeTemplate.IsOverlong #[] entry →
      Escapes source .noSuchValue

theorem FileTree.stat_of_readText {tree : FileTree} (h : tree.readText file = .ok source) :
    ∃ node, tree.stat file = .ok node := by
  obtain ⟨data, hdata, -⟩ := Except.bind_eq_ok.mp h
  obtain ⟨node, hnode, -⟩ := Except.bind_eq_ok.mp (Except.mapError_eq_ok.mp hdata)
  exact ⟨node, hnode⟩

theorem loadTypes_eq {tree : FileTree} (hjson : file.isYaml = false)
    (hread : tree.readText file = .ok source) : loadTypes tree file =
      (Json.parse source.toList).mapError (Document.Flaw.failure file) >>=
        fun j => TypeTemplate.allOfConfiguration { root := .ofJson j } := by
  obtain ⟨node, hstat⟩ := FileTree.stat_of_readText hread
  simp only [loadTypes, Configuration.parse, hstat, hread, hjson, bind, Except.bind]
  cases Json.parse source.toList <;> rfl

/-- Loading a template file in JSON gives its types or reports a problem of the template, unless
there is a cause for one of the faults that are not reported. -/
theorem loadTypes_of_json {tree : FileTree} {file : Path} {source : String}
    (hjson : file.isYaml = false) (hread : tree.readText file = .ok source) :
    (∃ types, loadTypes tree file = .ok types) ∨
    (∃ cause : Problem, loadTypes tree file = .error cause.anywhere ∧ cause.category = .template ∧
      cause.code = "E_TEMPLATE") ∨
    ∃ cause : Fault, loadTypes tree file = .error (.fault cause) ∧ cause.Escapes source := by
  have hload := loadTypes_eq hjson hread
  cases hparse : Json.parse source.toList with
  | error flaw =>
    rw [hparse] at hload
    cases flaw with
    | malformed => exact .inr (.inl ⟨_, hload, rfl, rfl⟩)
    | fault cause =>
      exact .inr (.inr ⟨cause, hload, .unread hparse (Json.accounts_of_parse hparse)⟩)
  | ok j =>
    rw [hparse] at hload
    have hsettles : TypeTemplate.Settles (Fault.notIterable.Escapes source)
        (Fault.noSuchValue.Escapes source) (fun _ => True)
        (TypeTemplate.allOfConfiguration { root := .ofJson j }) := by
      have hplain := Json.spelled_of_parse hparse
      apply TypeTemplate.allOfConfiguration_settles (c := { root := .ofJson j }) hplain
      · intro members hdescribes hlacks
        exact .bare hparse hdescribes hlacks
      · rintro members hdescribes ⟨entry, hitem, hlong⟩
        exact .overlong hparse hdescribes hitem hlong
    cases hall : TypeTemplate.allOfConfiguration { root := .ofJson j } with
    | ok types => exact .inl ⟨types, hload.trans hall⟩
    | error e =>
      rw [hall] at hsettles
      cases hsettles with
      | template => exact .inr (.inl ⟨_, hload.trans hall, rfl, rfl⟩)
      | bare h => exact .inr (.inr ⟨_, hload.trans hall, h⟩)
      | long h => exact .inr (.inr ⟨_, hload.trans hall, h⟩)

namespace Sample

def numberForFields : String :=
  "\x7b\"types\":[\x7b\"name\":\"T\",\"fields\":5\x7d]\x7d"

def malformedTree : FileTree where
  working := []
  nodes := [(["types.json".toUTF8.toList], .file numberForFields.toUTF8.toList)]

theorem loadTypes_malformed :
    loadTypes malformedTree (Path.ofString "types.json") = .error (.fault .notIterable) := by
  decide +kernel

end Sample

theorem loadTypes_of_json_sample : Fault.notIterable.Escapes Sample.numberForFields := by
  have hread : Sample.malformedTree.readText (Path.ofString "types.json") =
      .ok Sample.numberForFields := by
    decide +kernel
  obtain ⟨types, h⟩ | ⟨cause, h, -⟩ | ⟨cause, h, hescapes⟩ :=
    loadTypes_of_json (by decide +kernel) hread
  all_goals
    rw [Sample.loadTypes_malformed] at h
    cases h
  exact hescapes

/-- A number in the place of a list is reported as no problem of the template. -/
theorem loadTypes_number_for_list :
    Sample.malformedTree.readText (Path.ofString "types.json") = .ok Sample.numberForFields ∧
    (Json.parse Sample.numberForFields.toList).toOption.isSome ∧
    ¬((∃ types, loadTypes Sample.malformedTree (Path.ofString "types.json") = .ok types) ∨
      ∃ cause : Problem, loadTypes Sample.malformedTree (Path.ofString "types.json") =
        .error cause.anywhere ∧ cause.code = "E_TEMPLATE") := by
  refine ⟨by decide +kernel, by decide +kernel, ?_⟩
  rw [Sample.loadTypes_malformed]
  rintro (⟨types, h⟩ | ⟨cause, h, -⟩) <;> cases h

end ResourceScript

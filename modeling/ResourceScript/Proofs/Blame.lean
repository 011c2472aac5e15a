import ResourceScript.Proofs.Grammar

namespace ResourceScript

/-- Problems of the declaration itself, rather than of the id that it asks for or of the compiler.
-/
def Problem.isOfContent (cause : Problem) : Bool :=
  match cause with
  | duplicateId .. => false
  | cause => cause.category != .internal

/-- What a fault comes from: an encoding that is not known or does not encode, a number that is too
long to be shown, or a file system that refuses the name of an imported file. -/
inductive Fault.Excused (settings : Settings) (t : TypeTemplate) (tokens : List Token) :
    Fault → Prop where
  | encoding : Encoder.ofName? settings.encoders settings.encoding = none →
      Excused settings t tokens (.unknownEncoding settings.encoding)
  | encoder : Encoder.ofName? settings.encoders settings.encoding = some encoder →
      encoder content = .error none → Excused settings t tokens .noSuchValue
  | number : Text.isShown n = false → token ∈ tokens → token.lexeme.idNumber? = some n →
      Excused settings t tokens .noSuchValue
  | symbol : Text.isShown n = false → f ∈ t.fields → slot ∈ FieldTemplate.slots f →
      (name, SymbolValue.integer n) ∈ slot.symbols → Excused settings t tokens .noSuchValue
  | file : [word, token] <:+: tokens → word.IsWord "import" → token.lexeme = .string s →
      sourcePath settings.files.working settings.root s = .ok path →
      settings.files.stat path = .error .nameTooLong → Excused settings t tokens .fileSystem

/-- A failure that reading a declaration can end in. -/
inductive Failure.Explained (settings : Settings) (t : TypeTemplate) (tokens : List Token) :
    Failure → Prop where
  | problem {cause : Problem} : cause.isOfContent = true →
      (∀ p, place = some p → ∃ token ∈ tokens, token.position = p) →
      Explained settings t tokens (.problem cause place)
  | fault : Fault.Excused settings t tokens f → Explained settings t tokens (.fault f)

variable {settings : Settings} {t : TypeTemplate} {tokens : List Token} {token : Token}
  {cause : Problem} {e : Failure} {position : Position}

namespace Failure

def HasPlace : Failure → Prop
  | problem _ position => position.isSome
  | fault _ => True

/-- The place that a problem blames, if it blames one, is that of a token. -/
def BlamesToken (tokens : List Token) : Failure → Prop
  | problem _ place => ∀ p, place = some p → ∃ token ∈ tokens, token.position = p
  | fault _ => True

namespace Explained

theorem blamesToken (h : Explained settings t tokens e) : e.BlamesToken tokens := by
  cases h with
  | problem _ hplace => exact hplace
  | fault _ => trivial

theorem at_token (h : cause.isOfContent = true) (ht : token ∈ tokens) :
    Explained settings t tokens (cause.at token.position) := by
  refine .problem h ?_
  rintro _ ⟨⟩
  exact ⟨token, ht, rfl⟩

theorem anywhere (h : cause.isOfContent = true) :
    Explained settings t tokens cause.anywhere := by
  refine .problem h ?_
  rintro _ ⟨⟩

theorem locate (h : Explained settings t tokens e) (ht : token ∈ tokens) :
    Explained settings t tokens (e.locate token.position) := by
  cases h with
  | @problem place cause hc hp =>
    cases place with
    | none => exact at_token hc ht
    | some p => exact .problem hc hp
  | fault hc => exact .fault hc

end Explained

theorem blamesToken_at (cause : Problem) (ht : token ∈ tokens) :
    (cause.at token.position).BlamesToken tokens := by
  rintro _ ⟨⟩
  exact ⟨token, ht, rfl⟩

theorem blamesToken_anywhere (cause : Problem) : cause.anywhere.BlamesToken tokens := by
  rintro _ ⟨⟩

theorem hasPlace_locate (e : Failure) : (e.locate position).HasPlace := by
  cases e with
  | problem cause p => cases p <;> rfl
  | fault cause => trivial

end Failure

namespace Problem

theorem code_eq_internal : cause.code = "E_INTERNAL" ↔ cause.category = .internal := by
  cases cause <;> simp [code, category]

theorem code_eq_duplicateId :
    cause.code = "E_DUP_RESOURCE_ID" ↔ ∃ n type, cause = duplicateId n type := by
  cases cause <;> simp [code]

end Problem

end ResourceScript

import ResourceScript.Proofs.Munching

namespace ResourceScript

variable {settings : Settings} {t : TypeTemplate} {tokens : List Token} {source : String}
  {path : Option String} {registry : Registry} {e : Failure} {f : Fault}

/-- The constants of a type are numbers that can be shown. -/
def TypeTemplate.HasShownSymbols (t : TypeTemplate) : Prop :=
  ∀ f ∈ t.fields, ∀ slot ∈ f.slots, ∀ name n, (name, SymbolValue.integer n) ∈ slot.symbols →
    Text.isShown n = true

def HasShownNumbers (tokens : List Token) : Prop :=
  ∀ token ∈ tokens, ∀ n, token.lexeme.idNumber? = some n → Text.isShown n = true

/-- The file system puts up with the names of the files that tokens import. -/
def Settings.BearsImports (settings : Settings) (tokens : List Token) : Prop :=
  ∀ word token content file, [word, token] <:+: tokens → word.IsWord "import" →
    token.lexeme = .string content →
    sourcePath settings.files.working settings.root content = .ok file →
    settings.files.stat file ≠ .error .nameTooLong

/-- Why compiling a script ends in a fault: it holds a decimal numeral that is too long to be read,
or the encoder of its texts does not work. -/
inductive Fault.EndsScript (settings : Settings) (source : String) : Fault → Prop where
  | numeral : Lexicon.Reaches source.toList ds → Lexicon.Munch ds taken lexeme →
      Lexicon.IsUnread taken → EndsScript settings source .noSuchValue
  | encoder : Encoder.ofName? settings.encoders settings.encoding = some encoder →
      encoder content = .error none → EndsScript settings source .noSuchValue

def Failure.IsBearable (settings : Settings) (source : String) : Failure → Prop
  | problem cause _ => cause.code ≠ "E_INTERNAL"
  | fault f => f.EndsScript settings source

theorem Problem.code_of_isOfContent {cause : Problem} (h : cause.isOfContent = true) :
    cause.code ≠ "E_INTERNAL" := by
  rw [ne_eq, Problem.code_eq_internal]
  intro hc
  cases cause <;> simp_all [Problem.isOfContent, Problem.category]

/-- Where numbers can be shown, the encoding is known and the file system bears the imports, only
the encoder excuses a fault. -/
theorem Fault.Excused.endsScript
    (hencoding : (Encoder.ofName? settings.encoders settings.encoding).isSome = true)
    (hsymbols : t.HasShownSymbols) (himports : settings.BearsImports tokens)
    (hnumbers : HasShownNumbers tokens) (h : f.Excused settings t tokens) :
    f.EndsScript settings source := by
  cases h with
  | encoding hn => simp [hn] at hencoding
  | encoder hknown hfails => exact .encoder hknown hfails
  | number hn ht hl => simp [hnumbers _ ht _ hl] at hn
  | symbol hn hf hslot hmem => simp [hsymbols _ hf _ hslot _ _ hmem] at hn
  | file hw hword hl hp hs => exact absurd hs (himports _ _ _ _ hw hword hl hp)

theorem Declaration.OfScript.isBearable (h : OfScript settings t tokens e)
    (hf : ∀ f : Fault, f.Excused settings t tokens → f.EndsScript settings source)
    (hnumbers : HasShownNumbers tokens) : e.IsBearable settings source := by
  cases h with
  | explained h =>
    cases h with
    | problem hc _ => exact Problem.code_of_isOfContent hc
    | fault hx => exact hf _ hx
  | refused hnumber hid _ =>
    rw [Registry.refusal_of_shown (hnumbers _ hnumber _ hid)]
    simp [Failure.IsBearable, Problem.code]

theorem isBearable_of_tokenize (h : tokenize source path = .error e) :
    e.IsBearable settings source := by
  obtain ⟨ds, es, -, hreach, ⟨c, rest, -, -, rfl⟩ | ⟨taken, lexeme, hm, hlong, rfl⟩⟩ :=
    tokenizeFrom_eq_error h
  · obtain ⟨cause, hcause, hcode, -⟩ := stuckFailure_eq c ((Position.start path).after ds)
    rw [hcause]
    change cause.code ≠ "E_INTERNAL"
    rw [hcode]
    decide
  · exact .numeral hreach hm hlong

theorem Settings.bearsImports_of_forall (h : ∀ token ∈ tokens, token.text ≠ "import") :
    settings.BearsImports tokens := by
  intro word token content file hw hword
  exact absurd hword.2 (h word (hw.subset List.mem_cons_self))

theorem Assignment.value_admissible {a : Assignment} {slot : Slot} {d : Directive}
    {s s' : Session} (hf : a.field ∈ a.type.fields) (hslot : slot ∈ a.field.slots)
    (h : a.value slot d s = .ok v s') :
    ∃ entry ∈ a.type.entries, entry.name = slot.name ∧ entry.type = a.typeOf slot ∧
      v.Admissible entry.type := by
  obtain ⟨⟨_, -, -, ha⟩, -⟩ := (ends_value hf hslot (List.suffix_refl _) d).of_ok h
  obtain ⟨entry, hmem, hname, htype⟩ := TypeTemplate.exists_entry fun hu => by
    rw [Assignment.typeOf, hu] at ha
    cases v <;> simp [Value.Admissible] at ha
  exact ⟨entry, hmem, hname, htype, htype ▸ ha⟩

/-- With a type in use and any known encoding, compiling fails with a problem of the script, for a
numeral that is not read or for an encoder that does not work, and every value that reaches the
codec is one that its entry of the type holds. -/
theorem compile_error_isBearable (ht : registry.active? = some t)
    (hencoding : (Encoder.ofName? settings.encoders settings.encoding).isSome = true)
    (hsymbols : t.HasShownSymbols)
    (hnumbers : ∀ tokens, tokenize source path = .ok tokens → HasShownNumbers tokens)
    (himports : ∀ tokens, tokenize source path = .ok tokens → settings.BearsImports tokens) :
    (∀ e, (compile settings registry source path).result = .error e →
      (∃ cause place, e = .problem cause place ∧ cause.code ≠ "E_INTERNAL") ∨
        ∃ f, e = .fault f ∧ f.EndsScript settings source) ∧
    ∀ (a : Assignment) (slot : Slot) (d : Directive) (s s' : Session) (v : Value), a.type = t →
      a.field ∈ t.fields → slot ∈ a.field.slots → a.value slot d s = .ok v s' →
      ∃ entry ∈ t.entries, entry.name = slot.name ∧ entry.type = a.typeOf slot ∧
        v.Admissible entry.type := by
  refine ⟨fun e he => ?_, ?_⟩
  · have hbearable : e.IsBearable settings source := by
      obtain hsource | ⟨c, s, hsource, hread⟩ := error_of_compile he
      · exact isBearable_of_tokenize (ofSource_eq_error hsource)
      · obtain ⟨tokens, htokens, hc⟩ := ofSource_eq_ok hsource
        obtain rfl := Cursor.stream_of_ofTokens hc
        have hready : Declaration.Ready { cursor := c, registry } t c.stream :=
          ⟨ht, List.suffix_refl _⟩
        refine ((Declaration.ends_readAll hready).of_error hread).1.isBearable (fun f hf => ?_)
          (hnumbers _ htokens)
        exact hf.endsScript hencoding hsymbols (himports _ htokens) (hnumbers _ htokens)
    cases e with
    | problem cause place => exact .inl ⟨cause, place, rfl, hbearable⟩
    | fault f => exact .inr ⟨f, rfl, hbearable⟩
  · rintro a slot d s s' v rfl hf hslot h
    exact Assignment.value_admissible hf hslot h

theorem compile_sample_isBearable : ∃ e,
    (compile Sample.settings Sample.registry Sample.script).result = .error e ∧
      ((∃ cause place, e = .problem cause place ∧ cause.code ≠ "E_INTERNAL") ∨
        ∃ f, e = .fault f ∧ f.EndsScript Sample.settings Sample.script) := by
  have hfails : (compile Sample.settings Sample.registry Sample.script).result.toOption = none := by
    decide +kernel
  have htexts : (tokenize Sample.script).toOption.all (·.all fun token =>
      token.text ≠ "import" && token.lexeme.idNumber?.all Text.isShown) = true := by
    decide +kernel
  have hsymbols : Sample.note.HasShownSymbols := by
    simp [TypeTemplate.HasShownSymbols, Sample.note, FieldTemplate.slots, Sample.rank, Sample.label]
  have htoken : ∀ tokens, tokenize Sample.script = .ok tokens → ∀ token ∈ tokens,
      token.text ≠ "import" ∧ token.lexeme.idNumber?.all Text.isShown = true := by
    intro tokens htokens token htoken
    rw [htokens] at htexts
    simpa using List.all_eq_true.mp htexts token htoken
  have himports : ∀ tokens, tokenize Sample.script = .ok tokens →
      Sample.settings.BearsImports tokens := fun tokens htokens =>
    Settings.bearsImports_of_forall fun token ht => (htoken tokens htokens token ht).1
  have hnumbers : ∀ tokens, tokenize Sample.script = .ok tokens → HasShownNumbers tokens := by
    intro tokens htokens token ht n hn
    simpa [hn] using (htoken tokens htokens token ht).2
  cases hresult : (compile Sample.settings Sample.registry Sample.script).result with
  | ok resources => simp [hresult, Except.toOption] at hfails
  | error e =>
    have ht : Sample.registry.active? = some Sample.note := rfl
    obtain ⟨h, -⟩ := compile_error_isBearable ht (by decide) hsymbols hnumbers himports
    exact ⟨e, rfl, h e hresult⟩

theorem compile_of_tokenize_error (h : tokenize source path = .error e) :
    (compile settings registry source path).result = .error e := by
  have hsource : Cursor.ofSource source path = .error e := Except.bind_eq_error.mpr (.inl h)
  rw [compile, hsource]

/-- Two faults that get out of a compilation with a known encoding: zeros that are too many digits
to be read, and an encoder that does not put up with raw bytes. -/
theorem compile_faults :
    (compile Sample.settings Sample.registry (String.ofList (List.replicate 4301 '0'))).result =
        .error (.fault .noSuchValue) ∧
      (Encoder.ofName? Sample.settings.encoders "idna").isSome = true ∧
      (compile { Sample.settings with encoding := "idna" } Sample.registry
        "new () \x7b label = \"a\"; \x7d").result = .error (.fault .noSuchValue) := by
  refine ⟨?_, by decide +kernel, by decide +kernel⟩
  exact compile_of_tokenize_error (tokenize_replicate_zero (by decide) none)

end ResourceScript

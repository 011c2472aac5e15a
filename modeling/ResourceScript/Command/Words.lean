import ResourceScript.Text.Class

namespace ResourceScript

structure Switch where
  key : String
  /-- The words that turn it, each with one dash and a letter or with two dashes. -/
  names : List String
  /-- Whether a value comes with it. -/
  valued : Bool := false
  /-- The values it takes; any, if none are listed. -/
  choices : List String := []
  required : Bool := false
  deriving DecidableEq, Repr

/-- What may stand on a command line: switches, and one operand. -/
structure CommandForm where
  switches : List Switch
  /-- If there are commands, the operand is one of them, and all words behind it belong to it. -/
  commands : List String := []
  deriving DecidableEq, Repr

inductive Refusal where
  | help
  | misuse
  deriving DecidableEq, Repr

/-- What follows the name of a switch in the same word. -/
structure Attachment where
  /-- Whether an equals sign stands between. -/
  assigned : Bool
  value : List Char
  deriving DecidableEq, Repr

structure SwitchHit where
  switch : Switch
  name : String
  attached : Option Attachment
  deriving DecidableEq, Repr

inductive WordClass where
  | operand
  | separator
  /-- A word that turns a switch; none, if no switch is known by that name. -/
  | switch (hit : Option SwitchHit)
  deriving DecidableEq, Repr

def Switch.help : Switch where
  key := "help"
  names := ["-h", "--help"]

def separator : String := "--"

namespace CommandForm

def named (f : CommandForm) : List (String × Switch) :=
  (Switch.help :: f.switches).flatMap fun s => s.names.map fun name => (name, s)

def splitValue (word : List Char) : List Char × Option Attachment :=
  let (name, rest) := word.span (· != '=')
  (name, rest.tail?.map fun value => ⟨true, value⟩)

/-- The switches that a word may be short for: those whose names begin with it, or the one whose
letter it begins with. -/
def abbreviated (f : CommandForm) (word : List Char) : List SwitchHit :=
  match word with
  | '-' :: '-' :: _ =>
    let (start, value) := splitValue word
    (f.named.filter fun n => start.isPrefixOf n.1.toList).map fun n => ⟨n.2, n.1, value⟩
  | dash :: letter :: value =>
    (f.named.filter fun n => n.1.toList = [dash, letter]).map fun n =>
      ⟨n.2, n.1, some ⟨false, value⟩⟩
  | _ => []

def isNegativeNumber (word : List Char) : Bool :=
  match word with
  | '-' :: rest =>
    let isDigits (cs : List Char) : Bool := cs.all fun c => (Text.digitValue? c).isSome
    let (whole, fraction) := rest.span (· != '.')
    match fraction with
    | [] => !whole.isEmpty && isDigits whole
    | _ :: digits => isDigits whole && !digits.isEmpty && isDigits digits
  | _ => false

def switchNamed? (f : CommandForm) (name : String) : Option Switch :=
  f.named.lookup name

def classify (f : CommandForm) (word : String) : Except Refusal WordClass :=
  let signs := word.toList
  if signs.head? ≠ some '-' ∨ signs.length = 1 then .ok .operand
  else
    match f.switchNamed? word with
    | some s => .ok (.switch (some ⟨s, word, none⟩))
    | none =>
      let (start, value) := splitValue signs
      match value, f.switchNamed? (String.ofList start) with
      | some value, some s => .ok (.switch (some ⟨s, String.ofList start, some value⟩))
      | _, _ =>
        match f.abbreviated signs with
        | [hit] => .ok (.switch (some hit))
        | _ :: _ => .error .misuse
        | [] =>
          if isNegativeNumber signs ∨ ' ' ∈ signs then .ok .operand else .ok (.switch none)

def classifyAll (f : CommandForm) : List String → Except Refusal (List (String × WordClass))
  | [] => .ok []
  | word :: words =>
    if word = separator then .ok ((word, .separator) :: words.map fun w => (w, .operand))
    else do
      let c ← f.classify word
      let rest ← f.classifyAll words
      return (word, c) :: rest

/-- Whether a name is a dash and a letter, so that further letters may share its word. -/
def isShort (name : String) : Bool :=
  name.length = 2

def attachment? : List Char → Option Attachment
  | [] => none
  | '=' :: value => some ⟨true, value⟩
  | value => some ⟨false, value⟩

structure Turns where
  /-- The switches it turns, with their values. -/
  hits : List (Switch × Option String) := []
  /-- Whether the operand behind the word is the value of the last of them. -/
  takesNext : Bool := false
  /-- Whether there are letters that nothing asks for. -/
  excess : Bool := false

/-- What a word does that turns a switch, given the operand behind the word. Further letters behind
a letter without a value turn switches as well. -/
def expand (f : CommandForm) (next : Option String) (s : Switch) (short : Bool) :
    Option Attachment → Except Refusal Turns
  | none =>
    if s.valued then
      match next with
      | some value => .ok { hits := [(s, some value)], takesNext := true }
      | none => .error .misuse
    else .ok { hits := [(s, none)] }
  | some ⟨assigned, value⟩ =>
    if s.valued then .ok { hits := [(s, some (String.ofList value))] }
    else
      match value with
      | [] => .error .misuse
      | c :: rest =>
        if ¬ short ∨ assigned ∨ c = '-' then .error .misuse
        else
          match f.switchNamed? (String.ofList ['-', c]) with
          | none => .ok { hits := [(s, none)], excess := true }
          | some s' =>
            (f.expand next s' true (attachment? rest)).map fun t =>
              { t with hits := (s, none) :: t.hits }
termination_by attached => (attached.map fun a => a.value.length + 1).getD 0
decreasing_by
  unfold attachment?
  split <;> simp only [Option.map_some, Option.map_none, Option.getD_some, Option.getD_none,
    List.length_cons] <;> omega

end CommandForm

structure Request where
  /-- The switches that were turned, in order, with their values. -/
  turned : List (String × String) := []
  operand : Option String := none
  /-- The words that belong to the command. -/
  rest : List String := []
  /-- Whether there are words that nothing asks for. -/
  excess : Bool := false
  deriving DecidableEq, Repr

namespace Request

def turn (r : Request) (s : Switch) (value : Option String) : Except Refusal Request :=
  if s = Switch.help then .error .help
  else
    let value := value.getD ""
    if s.choices.isEmpty ∨ value ∈ s.choices then
      .ok { r with turned := r.turned ++ [(s.key, value)] }
    else .error .misuse

def value? (r : Request) (key : String) : Option String :=
  r.turned.reverse.lookup key

def count (r : Request) (key : String) : Nat :=
  (r.turned.filter (·.1 = key)).length

def has (r : Request) (key : String) : Bool :=
  r.count key != 0

def takeOperand (r : Request) (word : String) (rest : List (String × WordClass)) :
    Request × List (String × WordClass) :=
  ({ r with operand := some word },
    match rest with
    | (_, .separator) :: rest => rest
    | rest => rest)

theorem takeOperand_length (r : Request) (word : String) (rest : List (String × WordClass)) :
    (r.takeOperand word rest).2.length ≤ rest.length := by
  unfold takeOperand
  split <;> simp

def read (f : CommandForm) (r : Request) : List (String × WordClass) → Except Refusal Request
  | [] => .ok r
  | (_, .switch none) :: rest => read f { r with excess := true } rest
  | (_, .switch (some hit)) :: rest => do
    let next := match rest with
      | (word, .operand) :: _ => some word
      | _ => none
    let turns ← f.expand next hit.switch (CommandForm.isShort hit.name) hit.attached
    let r ← turns.hits.foldlM (fun r (h : Switch × Option String) => r.turn h.1 h.2) r
    read f { r with excess := r.excess || turns.excess }
      (if turns.takesNext then rest.tail else rest)
  | (word, .operand) :: rest =>
    if r.operand.isSome then read f { r with excess := true } rest
    else if f.commands.isEmpty then
      let taken := r.takeOperand word rest
      read f taken.1 taken.2
    else if word ∈ f.commands then .ok { r with operand := some word, rest := rest.map (·.1) }
    else .error .misuse
  | (_, .separator) :: (word, .operand) :: rest =>
    if r.operand.isSome ∨ ¬ f.commands.isEmpty then .ok { r with excess := true }
    else
      let taken := r.takeOperand word rest
      read f taken.1 taken.2
  | (_, .separator) :: _ => .ok { r with excess := true }
termination_by words => words.length
decreasing_by
  · exact Nat.lt_succ_self _
  · rw [List.length_cons]
    split
    · rw [List.length_tail]
      omega
    · omega
  · exact Nat.lt_succ_self _
  · have := takeOperand_length r word rest
    rw [List.length_cons]
    omega
  · have := takeOperand_length r word rest
    rw [List.length_cons, List.length_cons]
    omega

def isComplete (f : CommandForm) (r : Request) : Bool :=
  r.operand.isSome && f.switches.all fun s => !s.required || r.has s.key

/-- Reads the words of a command line. Words that nothing asks for are left to the caller. -/
def ofWords (f : CommandForm) (words : List String) : Except Refusal Request := do
  let r ← read f {} (← f.classifyAll words)
  if r.isComplete f then return r else throw .misuse

end Request

end ResourceScript

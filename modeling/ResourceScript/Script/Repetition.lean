namespace ResourceScript

/-- Repeats a step as long as there is `more` to do. Every round has to bring the measure down; one
that does not is the last. -/
def repeatWhile (measure : σ → Nat) (more : σ → Bool) (step : α → EStateM ε σ α) (a : α) :
    EStateM ε σ α := fun s =>
  if more s then
    match step a s with
    | .ok b s' =>
      if measure s' < measure s then repeatWhile measure more step b s' else .ok b s'
    | .error e s' => .error e s'
  else .ok a s
termination_by s => measure s

end ResourceScript

/-!
# Where a result comes from

Calculations that may raise are values of `Except`. These lemmas take a sequence of them apart: from the
result, back to the results of its parts.
-/

/-- The answer that a mapped one comes from. -/
theorem eq_ok_of_map {ε α β : Type} {f : α → β} {b : β} :
    ∀ {x : Except ε α}, x.map f = .ok b → ∃ a, x = .ok a ∧ f a = b
  | .ok a, h => ⟨a, rfl, Except.ok.inj h⟩

/-- What a sequence of two calculations has returned. -/
theorem eq_ok_of_bind {ε α β : Type} {f : α → Except ε β} {b : β} :
    ∀ {x : Except ε α}, x.bind f = .ok b → ∃ a, x = .ok a ∧ f a = .ok b
  | .error _, h => nomatch h
  | .ok a, h => ⟨a, rfl, h⟩

namespace FiveStage

-- Computations that may fail, taken apart: what they give, and what they fail with.
variable {ε α β : Type} {x : Except ε α} {f : α → Except ε β} {b : β} {e : ε} {u : Unit}

theorem bind_eq_ok : (x >>= f) = .ok b ↔ ∃ a, x = .ok a ∧ f a = .ok b := by
  cases x <;> simp [bind, Except.bind]

theorem bind_eq_error :
    (x >>= f) = .error e ↔ x = .error e ∨ ∃ a, x = .ok a ∧ f a = .error e := by
  cases x <;> simp [bind, Except.bind]

theorem map_eq_ok {g : α → β} : x.map g = .ok b ↔ ∃ a, x = .ok a ∧ g a = b := by
  cases x <;> simp [Except.map]

theorem map_eq_error {g : α → β} : g <$> x = .error e ↔ x = .error e := by
  cases x <;> simp [Functor.map, Except.map]

theorem discard_eq_ok : discard x = .ok u ↔ ∃ a, x = .ok a := by
  cases x <;> simp [discard, Functor.discard, Functor.mapConst, Except.map]

theorem discard_eq_error : discard x = .error e ↔ x = .error e := by
  cases x <;> simp [discard, Functor.discard, Functor.mapConst, Except.map]

theorem discard_eq_bind : discard x = x >>= fun _ => pure () := by
  cases x <;> rfl

theorem toOption_eq_some {a : α} : x.toOption = some a ↔ x = .ok a := by
  cases x <;> simp [Except.toOption]

theorem toOption_bind : (x >>= f).toOption = x.toOption.bind fun a => (f a).toOption := by
  cases x <;> rfl

theorem toOption_map {g : α → β} : (x.map g).toOption = x.toOption.map g := by
  cases x <;> rfl

end FiveStage

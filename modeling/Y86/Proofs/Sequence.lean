/-!
# Sequences that may fail

What is known of the parts of a computation whose result, or whose failure, is known. The computations are reads of
memory, the decoder and the loader; the execution of an instruction, which also leaves a machine behind when it fails,
has rules of its own (`Ends`).
-/

namespace Y86

variable {ε α β γ : Type} {x : Except ε α} {a : α} {b : β} {e : ε}

/-- A sequence yields a result if each of its parts does. -/
theorem exists_of_bind_eq_ok {f : α → Except ε β} (h : (x >>= f) = .ok b) : ∃ a, x = .ok a ∧ f a = .ok b := by
  cases x with
  | ok a => exact ⟨a, rfl, h⟩
  | error e => cases h

/-- A sequence fails where its first part fails, or behind it. -/
theorem exists_of_bind_eq_error {f : α → Except ε β} (h : (x >>= f) = .error e) :
    x = .error e ∨ ∃ a, x = .ok a ∧ f a = .error e := by
  cases x with
  | ok a => exact Or.inr ⟨a, rfl, h⟩
  | error e' => exact Or.inl (congrArg Except.error (Except.error.inj h))

/-- What is made of a result does not fail by itself. -/
theorem map_eq_error_iff {f : α → β} : Except.map f x = .error e ↔ x = .error e := by
  cases x with
  | ok a => exact ⟨nofun, nofun⟩
  | error e' => exact iff_of_eq ((Except.error.injEq e' e).trans (Except.error.injEq e' e).symm)

/-- A result is the same whatever a failure is turned into. -/
theorem mapError_eq_ok_iff {f : ε → γ} : x.mapError f = .ok a ↔ x = .ok a := by
  cases x with
  | ok a' => exact iff_of_eq ((Except.ok.injEq a' a).trans (Except.ok.injEq a' a).symm)
  | error e => exact ⟨nofun, nofun⟩

/-! A number that is read and then used as an integer is the case of `g` a cast. -/

theorem exists_of_map_eq_ok {g : α → γ} {f : γ → β} (h : Except.map f (x >>= fun a => pure (g a)) = .ok b) :
    ∃ a, x = .ok a ∧ f (g a) = b := by
  cases x with
  | ok a => exact ⟨a, rfl, Except.ok.inj h⟩
  | error e => cases h

theorem eq_error_of_map {g : α → γ} {f : γ → β} (h : Except.map f (x >>= fun a => pure (g a)) = .error e) :
    x = .error e := by
  cases x with
  | ok a => cases h
  | error e' => exact congrArg Except.error (Except.error.inj h)

theorem eq_ok_of_toOption (h : x.toOption = some a) : x = .ok a := by
  cases x with
  | ok a' => exact congrArg Except.ok (Option.some.inj h)
  | error e => cases h

end Y86

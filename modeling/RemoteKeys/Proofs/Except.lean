/-!
# Results of computations that may fail

What the success or the failure of such a computation says of its parts, and computations that come
to the same or fail in ways that are related.
-/

namespace Except

variable {ε ε' α β : Type}

theorem bind_eq_ok_iff {x : Except ε α} {f : α → Except ε β} {b : β} :
    x >>= f = .ok b ↔ ∃ a, x = .ok a ∧ f a = .ok b := by
  cases x <;> simp [bind, Except.bind]

theorem map_eq_ok_iff {x : Except ε α} {f : α → β} {b : β} :
    x.map f = .ok b ↔ ∃ a, x = .ok a ∧ f a = b := by
  cases x <;> simp [Except.map]

theorem map_map {γ : Type} {x : Except ε α} {f : α → β} {g : β → γ} :
    (x.map f).map g = x.map (g ∘ f) := by
  cases x <;> rfl

theorem bind_eq_error_iff {x : Except ε α} {f : α → Except ε β} {e : ε} :
    x >>= f = .error e ↔ x = .error e ∨ ∃ a, x = .ok a ∧ f a = .error e := by
  cases x <;> simp [bind, Except.bind]

theorem map_eq_error_iff {x : Except ε α} {f : α → β} {e : ε} :
    x.map f = .error e ↔ x = .error e := by
  cases x <;> simp [Except.map]

theorem mapError_eq_ok_iff {x : Except ε α} {f : ε → ε'} {a : α} :
    x.mapError f = .ok a ↔ x = .ok a := by
  cases x with
  | error e => exact ⟨nofun, nofun⟩
  | ok b => constructor <;> rintro ⟨⟩ <;> rfl

theorem mapError_bind {x : Except ε α} {f : α → Except ε β} {g : ε → ε'} :
    (x >>= f).mapError g = x.mapError g >>= fun a => (f a).mapError g := by
  cases x <;> rfl

theorem mapError_map {x : Except ε α} {f : α → β} {g : ε → ε'} :
    (x.map f).mapError g = (x.mapError g).map f := by
  cases x <;> rfl

/-- The computations have the same result, or fail both, with errors that are related. -/
inductive Alike (R : ε → ε → Prop) : Except ε α → Except ε α → Prop
  | ok (a : α) : Alike R (.ok a) (.ok a)
  | error {e e' : ε} (related : R e e') : Alike R (.error e) (.error e')

variable {R : ε → ε → Prop} {x y : Except ε α}

theorem Alike.refl (related : ∀ e, x = .error e → R e e) : Alike R x x := by
  cases x with
  | ok a => exact .ok a
  | error e => exact .error (related e rfl)

theorem Alike.bind {f g : α → Except ε β} (first : Alike R x y) (later : ∀ a, Alike R (f a) (g a)) :
    Alike R (x >>= f) (y >>= g) := by
  cases first with
  | ok a => exact later a
  | error related => exact .error related

theorem alike_mapError {g : ε → ε} (related : ∀ e, x = .error e → R e (g e)) :
    Alike R x (x.mapError g) := by
  cases x with
  | ok a => exact .ok a
  | error e => exact .error (related e rfl)

end Except

/-!
# Results in sequence

A sequence of two steps that may fail succeeds where both steps do, and fails as
the first one does or as the second one does after the first.  So a result that is
put together from parts fails with its first part that does.  Where only success
matters, two sequences agree if their steps do.
-/

namespace KeyRegistry

variable {ε α β : Type} {first : Except ε α}

theorem ok_of_bind {next : α -> Except ε β} {b : β} (h : (first >>= next) = .ok b) :
    ∃ a, first = .ok a ∧ next a = .ok b := by
  cases first with
  | error e => cases h
  | ok a => exact ⟨a, rfl, h⟩

theorem bind_of_ok {a : α} (h : first = .ok a) (next : α -> Except ε β) :
    (first >>= next) = next a := by
  rw [h]
  rfl

theorem error_of_bind {next : α -> Except ε β} {e : ε} (h : (first >>= next) = .error e) :
    first = .error e ∨ ∃ a, first = .ok a ∧ next a = .error e := by
  cases first with
  | error e =>
      cases h
      exact .inl rfl
  | ok a => exact .inr ⟨a, rfl, h⟩

theorem bind_of_error {e : ε} (h : first = .error e) (next : α -> Except ε β) :
    (first >>= next) = .error e := by
  rw [h]
  rfl

/-- A first part that is put together with the rest fails where it fails itself, or where the rest
fails after it. -/
theorem error_of_parts_iff {γ : Type} {rest : α -> Except ε β} {assemble : α -> β -> γ} {e : ε}
    {fails : Prop} (hrest : forall a, rest a = .error e ↔ fails) :
    (first >>= fun a => rest a >>= fun b => pure (assemble a b)) = .error e ↔
      first = .error e ∨ (∃ a, first = .ok a) ∧ fails := by
  constructor
  · intro h
    rcases error_of_bind h with hfirst | ⟨a, hfirst, hparts⟩
    · exact .inl hfirst
    · rcases error_of_bind hparts with hfails | ⟨b, _, hpure⟩
      · exact .inr ⟨⟨a, hfirst⟩, (hrest a).mp hfails⟩
      · cases hpure
  · rintro (hfirst | ⟨⟨a, hfirst⟩, hfails⟩)
    · exact bind_of_error hfirst _
    · rw [bind_of_ok hfirst]
      exact bind_of_error ((hrest a).mpr hfails) _

theorem eq_error_iff_of_only {cause : ε} (honly : forall e, first = .error e -> e = cause) {e : ε} :
    first = .error e ↔ e = cause ∧ forall a, first ≠ .ok a := by
  cases first with
  | error other =>
      cases honly other rfl
      constructor
      · intro h
        cases h
        exact ⟨rfl, nofun⟩
      · rintro ⟨rfl, _⟩
        rfl
  | ok a => exact ⟨nofun, fun h => absurd rfl (h.2 a)⟩

/-! ## Results that agree -/

/-- Whether two results are the same success, or failures of whatever causes. -/
inductive Agree : Except ε α -> Except ε α -> Prop where
  | ok (a : α) : Agree (.ok a) (.ok a)
  | error (e e' : ε) : Agree (.error e) (.error e')

namespace Agree

variable {second : Except ε α}

theorem refl (first : Except ε α) : Agree first first := by
  cases first with
  | error e => exact error e e
  | ok a => exact ok a

theorem map (h : Agree first second) (f : α -> β) : Agree (first.map f) (second.map f) := by
  cases h with
  | ok a => exact refl _
  | error e e' => exact error e e'

theorem bind (h : Agree first second) {next next' : α -> Except ε β}
    (hnext : forall a, Agree (next a) (next' a)) :
    Agree (first >>= next) (second >>= next') := by
  cases h with
  | ok a => exact hnext a
  | error e e' => exact error e e'

theorem of_successes (h : forall a, first = .ok a -> second = .ok a)
    (hback : forall a, second = .ok a -> first = .ok a) : Agree first second := by
  cases hfirst : first with
  | ok a =>
      rw [h a hfirst]
      exact ok a
  | error e =>
      cases hsecond : second with
      | ok a => cases hfirst.symm.trans (hback a hsecond)
      | error e' => exact error e e'

theorem eq_ok (h : Agree first second) {a : α} (hfirst : first = .ok a) : second = .ok a := by
  cases h with
  | ok b => exact hfirst
  | error e e' => cases hfirst

theorem symm (h : Agree first second) : Agree second first := by
  cases h with
  | ok a => exact ok a
  | error e e' => exact error e' e

end Agree

end KeyRegistry

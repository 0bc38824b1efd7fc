namespace OrgClient

set_option autoImplicit true

theorem ok_bind (a : α) (f : α → Except ε β) : (.ok a >>= f) = f a :=
  rfl

/-- Two steps give a result if the first gives one from which the second does. -/
theorem bind_eq_ok_iff {x : Except ε α} {f : α → Except ε β} {b : β} :
    (x >>= f) = .ok b ↔ ∃ a, x = .ok a ∧ f a = .ok b := by
  cases x with
  | error e =>
    refine ⟨fun h => ?_, ?_⟩
    · cases h
    · rintro ⟨a, ha, _⟩
      cases ha
  | ok a =>
    refine ⟨fun h => ⟨a, rfl, h⟩, ?_⟩
    rintro ⟨c, hc, h⟩
    cases hc
    exact h

/-- Two steps fail if the first does, or if the second does with the result of the first. -/
theorem bind_eq_error_iff {x : Except ε α} {f : α → Except ε β} {e : ε} :
    (x >>= f) = .error e ↔ x = .error e ∨ ∃ a, x = .ok a ∧ f a = .error e := by
  cases x with
  | error e' =>
    constructor
    · intro h
      cases h
      exact .inl rfl
    · rintro (h | ⟨a, ha, _⟩)
      · cases h
        rfl
      · cases ha
  | ok a =>
    constructor
    · intro h
      exact .inr ⟨a, rfl, h⟩
    · rintro (h | ⟨b, hb, h⟩)
      · cases h
      · cases hb
        exact h

theorem map_eq_error_iff {x : Except ε α} {f : α → β} {e : ε} :
    x.map f = .error e ↔ x = .error e := by
  cases x with
  | error e' =>
    constructor <;> intro h <;> cases h <;> rfl
  | ok a => exact ⟨nofun, nofun⟩

theorem map_eq_ok_iff {x : Except ε α} {f : α → β} {b : β} :
    x.map f = .ok b ↔ ∃ a, x = .ok a ∧ f a = b := by
  cases x with
  | error e =>
    constructor
    · intro h
      cases h
    · rintro ⟨a, ha, _⟩
      cases ha
  | ok a =>
    constructor
    · intro h
      cases h
      exact ⟨a, rfl, rfl⟩
    · rintro ⟨a', ha, h⟩
      cases ha
      exact congrArg Except.ok h

theorem exists_ok_of_toBool {x : Except ε α} (h : x.toBool) : ∃ a, x = .ok a := by
  cases x with
  | error e => cases h
  | ok a => exact ⟨a, rfl⟩

theorem run_bind_eq_ok_iff {x : ExceptT ε Id α} {f : α → ExceptT ε Id β} {b : β} :
    Id.run (x >>= f).run = .ok b ↔ ∃ a, Id.run x.run = .ok a ∧ Id.run (f a).run = .ok b := by
  rw [ExceptT.run_bind]
  cases hx : x.run with
  | error e =>
    refine ⟨fun h => ?_, ?_⟩
    · cases h
    · rintro ⟨a, ha, _⟩
      cases ha
  | ok a =>
    refine ⟨fun h => ⟨a, rfl, h⟩, ?_⟩
    rintro ⟨c, hc, h⟩
    cases hc
    exact h

theorem run_bind_state (x : ExceptT ε (StateM σ) α) (f : α → ExceptT ε (StateM σ) β) (s : σ) :
    (x >>= f).run s =
      match x.run s with
      | (.ok a, s') => (f a).run s'
      | (.error e, s') => (.error e, s') := by
  have hs : StateT.run x.run s = x.run s := rfl
  rw [ExceptT.run_bind]
  change StateT.run (x.run >>= _) s = _
  rw [StateT.run_bind, hs]
  rcases x.run s with ⟨_ | _, s'⟩ <;> rfl

theorem run_bind_pure (x : ExceptT ε (StateM σ) α) (f : α → β) (s : σ) :
    (x >>= fun a => pure (f a)).run s = ((x.run s).1.map f, (x.run s).2) := by
  rw [run_bind_state]
  rcases x.run s with ⟨_ | _, s'⟩ <;> rfl

theorem run_liftM_except (x : Except ε α) (s : σ) :
    (liftM x : ExceptT ε (StateM σ) α).run s = (x, s) :=
  rfl

theorem run_liftM_state (x : StateM σ α) (s : σ) :
    (liftM x : ExceptT ε (StateM σ) α).run s = (.ok (x.run s).1, (x.run s).2) :=
  rfl

/-- Two outcomes that are the same error, or results that are related. -/
inductive Agree (R : α → β → Prop) : Except ε α → Except ε β → Prop
  | error (e : ε) : Agree R (.error e) (.error e)
  | ok (h : R a b) : Agree R (.ok a) (.ok b)

namespace Agree

theorem bind (h : Agree R x y) (hf : ∀ a b, R a b → Agree S (f a) (g b)) :
    Agree S (x >>= f) (y >>= g) := by
  cases h with
  | error e => exact .error e
  | ok h => exact hf _ _ h

theorem mono (h : Agree R x y) (hi : ∀ a b, R a b → S a b) : Agree S x y := by
  cases h with
  | error e => exact .error e
  | ok h => exact .ok (hi _ _ h)

/-- Outcomes that agree with one outcome agree. -/
theorem join (h : Agree R x z) (h' : Agree R y z) (hi : ∀ a b c, R a c → R b c → S a b) :
    Agree S x y := by
  cases h with
  | error e =>
    cases h'
    exact .error e
  | ok h =>
    cases h' with
    | ok h' => exact .ok (hi _ _ _ h h')

end Agree

end OrgClient

import Mathlib.Logic.Basic

/-!
# Results that may be faults

A computation in several steps gives a result exactly if every step does.
-/

namespace DeviceTwin

variable {ε α β : Type}

theorem error_ne_ok {e : ε} {a : α} : (.error e : Except ε α) ≠ .ok a :=
  nofun

/-- Faults give nothing, whichever they are. -/
theorem error_eq_ok_iff_error {e e' : ε} {a : α} :
    (.error e : Except ε α) = .ok a ↔ (.error e' : Except ε α) = .ok a :=
  iff_of_false error_ne_ok error_ne_ok

theorem ok_bind (a : α) (f : α → Except ε β) : (Except.ok a >>= f) = f a :=
  rfl

theorem bind_eq_ok_iff {x : Except ε α} {f : α → Except ε β} {b : β} :
    (x >>= f) = .ok b ↔ ∃ a, x = .ok a ∧ f a = .ok b := by
  cases x with
  | error e => exact ⟨nofun, fun ⟨_, h, _⟩ => nomatch h⟩
  | ok a =>
      constructor
      · exact fun h => ⟨a, rfl, h⟩
      · rintro ⟨_, ⟨⟩, h⟩
        exact h

theorem toOption_eq_some_iff {x : Except ε α} {a : α} : x.toOption = some a ↔ x = .ok a := by
  cases x <;> simp [Except.toOption]

theorem toOption_map (f : α → β) (x : Except ε α) : (x.map f).toOption = x.toOption.map f := by
  cases x <;> rfl

theorem toOption_bind (x : Except ε α) (f : α → Except ε β) :
    (x >>= f).toOption = x.toOption.bind fun a => (f a).toOption := by
  cases x <;> rfl

/-- A pair of results gives a record of two fields. -/
theorem bind_pair_eq_ok_iff {γ : Type} {x : Except ε α} {y : Except ε β} {mk : α → β → γ}
    (hmk : ∀ {a b a' b'}, mk a b = mk a' b' → a = a' ∧ b = b') {a : α} {b : β} :
    (x >>= fun a => y >>= fun b => pure (mk a b)) = .ok (mk a b) ↔ x = .ok a ∧ y = .ok b := by
  simp only [bind_eq_ok_iff]
  constructor
  · rintro ⟨a', hx, b', hy, heq⟩
    obtain ⟨rfl, rfl⟩ := hmk (Except.ok.inj heq)
    exact ⟨hx, hy⟩
  · rintro ⟨hx, hy⟩
    exact ⟨a, hx, b, hy, rfl⟩

/-- Three results give a record of three fields. -/
theorem bind_triple_eq_ok_iff {γ δ : Type} {x : Except ε α} {y : Except ε β} {z : Except ε γ}
    {mk : α → β → γ → δ}
    (hmk : ∀ {a b c a' b' c'}, mk a b c = mk a' b' c' → a = a' ∧ b = b' ∧ c = c')
    {a : α} {b : β} {c : γ} :
    (x >>= fun a => y >>= fun b => z >>= fun c => pure (mk a b c)) = .ok (mk a b c) ↔
      x = .ok a ∧ y = .ok b ∧ z = .ok c := by
  simp only [bind_eq_ok_iff]
  constructor
  · rintro ⟨a', hx, b', hy, c', hz, heq⟩
    obtain ⟨rfl, rfl, rfl⟩ := hmk (Except.ok.inj heq)
    exact ⟨hx, hy, hz⟩
  · rintro ⟨hx, hy, hz⟩
    exact ⟨a, hx, b, hy, c, hz, rfl⟩

theorem mapM_id_eq_ok_iff {rs : List (Except ε α)} {as : List α} :
    rs.mapM id = .ok as ↔ rs = as.map .ok := by
  induction rs generalizing as with
  | nil => cases as <;> simp [pure, Except.pure]
  | cons r rs ih =>
      rw [List.mapM_cons, bind_eq_ok_iff]
      simp only [bind_eq_ok_iff, ih]
      constructor
      · rintro ⟨a, hr, as', rfl, ⟨⟩⟩
        rw [List.map_cons, ← hr]
        rfl
      · intro h
        cases as with
        | nil => cases h
        | cons a as =>
            obtain ⟨hr, hrs⟩ := List.cons.inj h
            exact ⟨a, hr, as, hrs, rfl⟩

end DeviceTwin

/-!
# Outcomes

When a sequence of steps that can fail succeeds.
-/

namespace ServiceHarness

variable {ε α β : Type}

theorem bind_eq_ok_iff {x : Except ε α} {f : α → Except ε β} {b : β} :
    (x >>= f) = .ok b ↔ ∃ a, x = .ok a ∧ f a = .ok b := by
  cases x with
  | error e =>
      constructor
      · intro h
        cases h
      · rintro ⟨a, ha, -⟩
        cases ha
  | ok a =>
      constructor
      · exact fun h => ⟨a, rfl, h⟩
      · rintro ⟨a', ha, h⟩
        cases ha
        exact h

theorem bind_pure_eq_ok_iff {x : Except ε α} {f : α → β} {b : β} :
    (x >>= fun a => pure (f a)) = .ok b ↔ ∃ a, x = .ok a ∧ b = f a := by
  simp [bind_eq_ok_iff, pure, Except.pure, @eq_comm _ b]

theorem map_eq_ok_iff {x : Except ε α} {f : α → β} {b : β} :
    x.map f = .ok b ↔ ∃ a, x = .ok a ∧ f a = b := by
  cases x with
  | error e =>
      constructor
      · intro h
        cases h
      · rintro ⟨a, ha, -⟩
        cases ha
  | ok a =>
      constructor
      · intro h
        cases h
        exact ⟨a, rfl, rfl⟩
      · rintro ⟨a', ha, h⟩
        cases ha
        exact congrArg Except.ok h

@[simp]
theorem mapError_ok {ε' : Type} (f : ε → ε') (a : α) : (Except.ok a).mapError f = .ok a := rfl

@[simp]
theorem mapError_error {ε' : Type} (f : ε → ε') (e : ε) :
    (.error e : Except ε α).mapError f = .error (f e) := rfl

theorem mapError_eq_ok_iff {ε' : Type} {x : Except ε α} {f : ε → ε'} {a : α} :
    x.mapError f = .ok a ↔ x = .ok a := by
  cases x with
  | error e => simp
  | ok a' => simp

theorem unless_eq_ok_iff {p : Prop} [Decidable p] {e : ε} {f : α → Except ε β}
    {x : Except ε β} {b : β} :
    (if p then throw e >>= f else x) = .ok b ↔ ¬p ∧ x = .ok b := by
  by_cases hp : p
  · rw [if_pos hp]
    constructor
    · intro h
      cases h
    · exact fun h => absurd hp h.1
  · rw [if_neg hp]
    exact ⟨fun h => ⟨hp, h⟩, fun h => h.2⟩

/-- A step succeeds exactly under a condition, and then with a result of a kind. -/
structure Yields (x : Except ε α) (p : Prop) (q : α → Prop) : Prop where
  succeeds : p → ∃ a, x = .ok a
  sound : ∀ {a : α}, x = .ok a → p ∧ q a

namespace Yields

variable {x : Except ε α} {p p' : Prop} {q : α → Prop} {q' : β → Prop}

theorem ok {a : α} (hp : p) (ha : q a) : Yields (.ok a : Except ε α) p q where
  succeeds _ := ⟨a, rfl⟩
  sound h := by
    cases h
    exact ⟨hp, ha⟩

theorem error {e : ε} (h : ¬p) : Yields (.error e) p q where
  succeeds hp := absurd hp h
  sound h := by cases h

theorem congr (h : Yields x p q) (hp : p ↔ p') : Yields x p' q where
  succeeds h' := h.succeeds (hp.mpr h')
  sound hx := ⟨hp.mp (h.sound hx).1, (h.sound hx).2⟩

theorem bind {f : α → Except ε β} (hx : Yields x p q)
    (hf : p → ∀ a, q a → Yields (f a) p' q') : Yields (x >>= f) (p ∧ p') q' where
  succeeds h := by
    obtain ⟨a, ha⟩ := hx.succeeds h.1
    obtain ⟨b, hb⟩ := (hf h.1 a (hx.sound ha).2).succeeds h.2
    exact ⟨b, bind_eq_ok_iff.mpr ⟨a, ha, hb⟩⟩
  sound h := by
    obtain ⟨a, ha, hb⟩ := bind_eq_ok_iff.mp h
    obtain ⟨hp, hq⟩ := hx.sound ha
    obtain ⟨hp', hq'⟩ := (hf hp a hq).sound hb
    exact ⟨⟨hp, hp'⟩, hq'⟩

theorem map {f : α → β} (hx : Yields x p q) (hf : ∀ a, q a → q' (f a)) :
    Yields (x.map f) p q' where
  succeeds h := by
    obtain ⟨a, ha⟩ := hx.succeeds h
    exact ⟨f a, map_eq_ok_iff.mpr ⟨a, ha, rfl⟩⟩
  sound h := by
    obtain ⟨a, ha, rfl⟩ := map_eq_ok_iff.mp h
    exact ⟨(hx.sound ha).1, hf a (hx.sound ha).2⟩

theorem bind_ok_iff {f : α → Except ε β} {b : β} {r : Prop} (hx : Yields x p q) (hp : r → p)
    (hf : p → ∀ a, q a → (f a = .ok b ↔ r)) : (x >>= f) = .ok b ↔ r := by
  constructor
  · intro h
    obtain ⟨a, ha, hb⟩ := bind_eq_ok_iff.mp h
    obtain ⟨hp, hq⟩ := hx.sound ha
    exact (hf hp a hq).mp hb
  · intro hr
    obtain ⟨a, ha⟩ := hx.succeeds (hp hr)
    exact bind_eq_ok_iff.mpr ⟨a, ha, (hf (hp hr) a (hx.sound ha).2).mpr hr⟩

end Yields

theorem foldlM_cons_of_ok {f : α → β → Except ε α} {a a' : α} {b : β} (h : f a b = .ok a')
    (bs : List β) : (b :: bs).foldlM f a = bs.foldlM f a' := by
  rw [List.foldlM_cons, h]
  rfl

theorem foldlM_append_of_ok {f : α → β → Except ε α} {a a' : α} {bs : List β}
    (h : bs.foldlM f a = .ok a') (cs : List β) : (bs ++ cs).foldlM f a = cs.foldlM f a' := by
  rw [List.foldlM_append, h]
  rfl

end ServiceHarness

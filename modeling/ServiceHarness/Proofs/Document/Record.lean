import Mathlib.Data.List.Perm.Basic
import ServiceHarness.Document.Record

/-!
# Filling a record

A record is complete when every field has been filled once.  Members may fill
the fields in any order; a member that finds its field filled is not taken, so
that the members of a complete record are one for each field.
-/

namespace ServiceHarness.Document

variable {α β γ μ : Type}

private theorem perm_singleton_middle (m : μ) (l l' : List μ) :
    (l ++ [m] ++ l').Perm (m :: (l ++ l')) := by
  rw [List.append_assoc]
  exact List.perm_middle

/-- The members that one field takes to hold a value: none if the field is
filled already, else one that states the value. -/
inductive Slot {τ : Type} (states : τ → μ → Prop) : Option τ → τ → List μ → Prop
  | filled (t : τ) : Slot states (some t) t []
  | empty {t : τ} {m : μ} : states t m → Slot states none t [m]

namespace Draft

section Filling

variable (A : α → μ → Prop) (B : β → μ → Prop) (C : γ → μ → Prop)

/-- A member fills an empty field. -/
inductive Takes : Draft α β γ → μ → Draft α β γ → Prop
  | first {a : α} {b : Option β} {c : Option γ} {m : μ} :
      A a m → Takes ⟨none, b, c⟩ m ⟨some a, b, c⟩
  | second {a : Option α} {b : β} {c : Option γ} {m : μ} :
      B b m → Takes ⟨a, none, c⟩ m ⟨a, some b, c⟩
  | third {a : Option α} {b : Option β} {c : γ} {m : μ} :
      C c m → Takes ⟨a, b, none⟩ m ⟨a, b, some c⟩

/-- Members that fill the empty fields of a draft, with the values it then has. -/
inductive Filled : Draft α β γ → List μ → α × β × γ → Prop
  | done {a : α} {b : β} {c : γ} : Filled ⟨some a, some b, some c⟩ [] (a, b, c)
  | step {d d' : Draft α β γ} {m : μ} {ms : List μ} {v : α × β × γ} :
      Takes A B C d m d' → Filled d' ms v → Filled d (m :: ms) v

variable {A B C} {d : Draft α β γ} {ms : List μ} {v : α × β × γ}

theorem takes_iff {d' : Draft α β γ} {m : μ} :
    Takes A B C d m d' ↔
      (d.first = none ∧ ∃ a, A a m ∧ d' = { d with first := some a }) ∨
      (d.second = none ∧ ∃ b, B b m ∧ d' = { d with second := some b }) ∨
      (d.third = none ∧ ∃ c, C c m ∧ d' = { d with third := some c }) := by
  constructor
  · intro h
    cases h with
    | first h => exact .inl ⟨rfl, _, h, rfl⟩
    | second h => exact .inr (.inl ⟨rfl, _, h, rfl⟩)
    | third h => exact .inr (.inr ⟨rfl, _, h, rfl⟩)
  · obtain ⟨_, _, _⟩ := d
    rintro (⟨rfl, _, h, rfl⟩ | ⟨rfl, _, h, rfl⟩ | ⟨rfl, _, h, rfl⟩)
    · exact .first h
    · exact .second h
    · exact .third h

theorem filled_nil_iff {names : RecordNames} :
    Filled A B C d [] v ↔ d.finish names = .ok v := by
  constructor
  · intro h
    cases h
    rfl
  · intro h
    obtain ⟨_ | a, _ | b, _ | c⟩ := d <;> cases h
    exact .done

private theorem Filled.slots (h : Filled A B C d ms v) :
    ∃ l₁ l₂ l₃, Slot A d.first v.1 l₁ ∧ Slot B d.second v.2.1 l₂ ∧ Slot C d.third v.2.2 l₃ ∧
      ms.Perm (l₁ ++ l₂ ++ l₃) := by
  induction h with
  | done => exact ⟨[], [], [], .filled _, .filled _, .filled _, .nil⟩
  | @step _ _ m _ _ htakes _ ih =>
      obtain ⟨l₁, l₂, l₃, h₁, h₂, h₃, hperm⟩ := ih
      cases htakes with
      | first hm =>
          cases h₁
          exact ⟨[m], l₂, l₃, .empty hm, h₂, h₃, hperm.cons m⟩
      | second hm =>
          cases h₂
          refine ⟨l₁, [m], l₃, h₁, .empty hm, h₃, (hperm.cons m).trans ?_⟩
          rw [List.append_nil]
          exact (perm_singleton_middle m l₁ l₃).symm
      | third hm =>
          cases h₃
          refine ⟨l₁, l₂, [m], h₁, h₂, .empty hm, (hperm.cons m).trans ?_⟩
          rw [List.append_nil]
          exact (List.perm_append_singleton m (l₁ ++ l₂)).symm

private theorem filled_of_slots {l₁ l₂ l₃ : List μ} (h₁ : Slot A d.first v.1 l₁)
    (h₂ : Slot B d.second v.2.1 l₂) (h₃ : Slot C d.third v.2.2 l₃)
    (hperm : ms.Perm (l₁ ++ l₂ ++ l₃)) : Filled A B C d ms v := by
  induction ms generalizing d l₁ l₂ l₃ with
  | nil =>
      have hnil : l₁ ++ l₂ ++ l₃ = [] := hperm.nil_eq.symm
      simp only [List.append_eq_nil_iff] at hnil
      obtain ⟨⟨rfl, rfl⟩, rfl⟩ := hnil
      obtain ⟨a, b, c⟩ := d
      cases h₁
      cases h₂
      cases h₃
      exact .done
  | cons m ms ih =>
      obtain ⟨a, b, c⟩ := d
      have hmem : m ∈ l₁ ++ l₂ ++ l₃ := hperm.subset List.mem_cons_self
      rcases List.mem_append.mp hmem with hmem | hmem
      · rcases List.mem_append.mp hmem with hmem | hmem
        · cases h₁ with
          | filled => cases hmem
          | empty hm =>
              obtain rfl := List.mem_singleton.mp hmem
              exact .step (.first hm) (ih (.filled _) h₂ h₃ (List.perm_cons m |>.mp hperm))
        · cases h₂ with
          | filled => cases hmem
          | empty hm =>
              obtain rfl := List.mem_singleton.mp hmem
              have hrest := hperm.trans (perm_singleton_middle m l₁ l₃)
              refine .step (.second hm) (ih h₁ (.filled _) h₃ ?_)
              rw [List.append_nil]
              exact List.perm_cons m |>.mp hrest
      · cases h₃ with
        | filled => cases hmem
        | empty hm =>
            obtain rfl := List.mem_singleton.mp hmem
            have hrest := hperm.trans (List.perm_append_singleton m (l₁ ++ l₂))
            refine .step (.third hm) (ih h₁ h₂ (.filled _) ?_)
            rw [List.append_nil]
            exact List.perm_cons m |>.mp hrest

theorem filled_empty_iff :
    Filled A B C .empty ms v ↔
      ∃ m₁ m₂ m₃, A v.1 m₁ ∧ B v.2.1 m₂ ∧ C v.2.2 m₃ ∧ ms.Perm [m₁, m₂, m₃] := by
  constructor
  · intro h
    obtain ⟨l₁, l₂, l₃, h₁, h₂, h₃, hperm⟩ := h.slots
    cases h₁ with
    | empty h₁ =>
    cases h₂ with
    | empty h₂ =>
    cases h₃ with
    | empty h₃ => exact ⟨_, _, _, h₁, h₂, h₃, hperm⟩
  · rintro ⟨m₁, m₂, m₃, h₁, h₂, h₃, hperm⟩
    exact filled_of_slots (.empty h₁) (.empty h₂) (.empty h₃) hperm

end Filling

end Draft

end ServiceHarness.Document

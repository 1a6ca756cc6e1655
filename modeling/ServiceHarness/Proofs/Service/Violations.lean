import Mathlib.Data.List.Nodup
import ServiceHarness.Harness.Generation
import ServiceHarness.Proofs.Service.Validity

/-!
# The list of violations

Which rules a description breaks, said for each rule alone, and the order of
the rules.  The list of violations holds the broken rules and nothing else, each
one once and in order, and its first element is what every validation reports.
-/

namespace ServiceHarness

open ServiceHarness.Harness

/-! ## The order of violations -/

namespace Violation

def rank : Violation → Nat
  | emptyPackage => 0
  | emptyServiceName => 1
  | noMethods => 2
  | emptyMethodName _ => 3
  | emptyRequestType _ _ => 4
  | emptyResponseType _ _ => 5

def index : Violation → Nat
  | emptyPackage => 0
  | emptyServiceName => 0
  | noMethods => 0
  | emptyMethodName index => index
  | emptyRequestType index _ => index
  | emptyResponseType index _ => index

/-- Violations of an earlier rule come first, and those of one rule go by method. -/
def Before (v w : Violation) : Prop :=
  v.rank < w.rank ∨ v.rank = w.rank ∧ v.index < w.index

instance (v w : Violation) : Decidable (v.Before w) :=
  inferInstanceAs (Decidable (_ ∨ _))

theorem Before.ne {v w : Violation} (h : v.Before w) : v ≠ w := by
  rintro rfl
  rcases h with h | ⟨-, h⟩
  · exact Nat.lt_irrefl _ h
  · exact Nat.lt_irrefl _ h

/-- Violations in order, of the rules from `low` up to but not including `high`. -/
structure Ordered (low high : Nat) (vs : List Violation) : Prop where
  pairwise : vs.Pairwise Before
  low_le : ∀ v ∈ vs, low ≤ v.rank
  lt_high : ∀ v ∈ vs, v.rank < high

theorem Ordered.append {a b c : Nat} {vs ws : List Violation} (hv : Ordered a b vs)
    (hw : Ordered b c ws) (hab : a ≤ b) (hbc : b ≤ c) : Ordered a c (vs ++ ws) where
  pairwise := List.pairwise_append.mpr ⟨hv.pairwise, hw.pairwise, fun v hmem w hmem' =>
    .inl (Nat.lt_of_lt_of_le (hv.lt_high v hmem) (hw.low_le w hmem'))⟩
  low_le v hmem := by
    rcases List.mem_append.mp hmem with hmem | hmem
    · exact hv.low_le v hmem
    · exact Nat.le_trans hab (hw.low_le v hmem)
  lt_high v hmem := by
    rcases List.mem_append.mp hmem with hmem | hmem
    · exact Nat.lt_of_lt_of_le (hv.lt_high v hmem) hbc
    · exact hw.lt_high v hmem

end Violation

/-! ## The broken rules -/

namespace Service

/-- A description breaks a rule. -/
inductive Breaks (s : Service) : Violation → Prop
  | package : s.package = "" → Breaks s .emptyPackage
  | name : s.name = "" → Breaks s .emptyServiceName
  | methods : s.methods = [] → Breaks s .noMethods
  | methodName {i : Nat} {m : Method} :
      s.methods[i]? = some m → m.name = "" → Breaks s (.emptyMethodName i)
  | request {i : Nat} {m : Method} :
      s.methods[i]? = some m → m.request = "" → Breaks s (.emptyRequestType i m.name)
  | response {i : Nat} {m : Method} :
      s.methods[i]? = some m → m.response = "" → Breaks s (.emptyResponseType i m.name)

variable {s : Service} {v : Violation}

section OneRule

variable {broken : Method → Bool} {violation : Nat → Method → Violation} {methods : List Method}

private theorem mem_methodViolations_iff :
    v ∈ methodViolations broken violation methods ↔
      ∃ i m, methods[i]? = some m ∧ broken m = true ∧ v = violation i m := by
  rw [methodViolations, List.mem_filterMap]
  constructor
  · rintro ⟨⟨m, i⟩, hmem, hv⟩
    obtain ⟨hbroken, rfl⟩ : broken m = true ∧ violation i m = v := by simpa using hv
    exact ⟨i, m, List.mk_mem_zipIdx_iff_getElem?.mp hmem, hbroken, rfl⟩
  · rintro ⟨i, m, hget, hbroken, rfl⟩
    exact ⟨(m, i), List.mk_mem_zipIdx_iff_getElem?.mpr hget, by simp [hbroken]⟩

private theorem pairwise_methodViolations {r : Violation → Violation → Prop}
    (h : ∀ i j m n, i < j → r (violation i m) (violation j n)) :
    (methodViolations broken violation methods).Pairwise r := by
  have hindices : methods.zipIdx.Pairwise fun a b => a.2 < b.2 := by
    rw [← List.pairwise_map, List.zipIdx_map_snd]
    exact List.pairwise_lt_range'
  refine hindices.filterMap _ ?_
  rintro ⟨m, i⟩ ⟨n, j⟩ hij v hv w hw
  obtain ⟨-, rfl⟩ : broken m = true ∧ violation i m = v := by simpa using hv
  obtain ⟨-, rfl⟩ : broken n = true ∧ violation j n = w := by simpa using hw
  exact h i j m n hij

private theorem ordered_methodViolations {rank : Nat} (hrank : ∀ i m, (violation i m).rank = rank)
    (hindex : ∀ i m, (violation i m).index = i) :
    Violation.Ordered rank (rank + 1) (methodViolations broken violation methods) where
  pairwise := pairwise_methodViolations fun i j m n hij =>
    .inr ⟨by rw [hrank, hrank], by rwa [hindex, hindex]⟩
  low_le v hmem := by
    obtain ⟨i, m, -, -, rfl⟩ := mem_methodViolations_iff.mp hmem
    exact Nat.le_of_eq (hrank i m).symm
  lt_high v hmem := by
    obtain ⟨i, m, -, -, rfl⟩ := mem_methodViolations_iff.mp hmem
    exact Nat.lt_succ_of_le (Nat.le_of_eq (hrank i m))

end OneRule

private theorem mem_rule_iff {p : Prop} [Decidable p] {w : Violation} :
    v ∈ (if p then [w] else []) ↔ p ∧ v = w := by
  by_cases hp : p <;> simp [hp]

private theorem ordered_rule (p : Prop) [Decidable p] (w : Violation) :
    Violation.Ordered w.rank (w.rank + 1) (if p then [w] else []) where
  pairwise := by split <;> simp
  low_le v hmem := Nat.le_of_eq (congrArg Violation.rank (mem_rule_iff.mp hmem).2.symm)
  lt_high v hmem := by
    rw [(mem_rule_iff.mp hmem).2]
    exact Nat.lt_succ_self w.rank

theorem mem_violations_iff : v ∈ s.violations ↔ s.Breaks v := by
  simp only [violations, List.mem_append, mem_rule_iff, mem_methodViolations_iff, beq_iff_eq]
  constructor
  · rintro (((((⟨h, rfl⟩ | ⟨h, rfl⟩) | ⟨h, rfl⟩) | ⟨i, m, hm, h, rfl⟩) | ⟨i, m, hm, h, rfl⟩) |
      ⟨i, m, hm, h, rfl⟩)
    · exact .package h
    · exact .name h
    · exact .methods h
    · exact .methodName hm h
    · exact .request hm h
    · exact .response hm h
  · intro h
    cases h with
    | package h => exact .inl (.inl (.inl (.inl (.inl ⟨h, rfl⟩))))
    | name h => exact .inl (.inl (.inl (.inl (.inr ⟨h, rfl⟩))))
    | methods h => exact .inl (.inl (.inl (.inr ⟨h, rfl⟩)))
    | methodName hm h => exact .inl (.inl (.inr ⟨_, _, hm, h, rfl⟩))
    | request hm h => exact .inl (.inr ⟨_, _, hm, h, rfl⟩)
    | response hm h => exact .inr ⟨_, _, hm, h, rfl⟩

theorem ordered_violations (s : Service) : Violation.Ordered 0 6 s.violations := by
  have hpackage := ordered_rule (s.package = "") .emptyPackage
  have hname := ordered_rule (s.name = "") .emptyServiceName
  have hmethods := ordered_rule (s.methods = []) .noMethods
  have hnames : Violation.Ordered 3 4 (methodViolations (·.name == "")
      (fun i _ => .emptyMethodName i) s.methods) :=
    ordered_methodViolations (fun _ _ => rfl) fun _ _ => rfl
  have hrequests : Violation.Ordered 4 5 (methodViolations (·.request == "")
      (fun i m => .emptyRequestType i m.name) s.methods) :=
    ordered_methodViolations (fun _ _ => rfl) fun _ _ => rfl
  have hresponses : Violation.Ordered 5 6 (methodViolations (·.response == "")
      (fun i m => .emptyResponseType i m.name) s.methods) :=
    ordered_methodViolations (fun _ _ => rfl) fun _ _ => rfl
  have hservice := (hpackage.append hname (by decide) (by decide)).append hmethods
    (by decide) (by decide)
  exact ((hservice.append hnames (by decide) (by decide)).append hrequests
    (by decide) (by decide)).append hresponses (by decide) (by decide)

/-! ## Validation -/

theorem validate_eq_error_iff : s.validate = .error v ↔ s.violations.head? = some v := by
  rw [validate]
  cases s.violations <;> simp

theorem validate_eq_ok_iff : s.validate = .ok () ↔ s.violations = [] := by
  rw [validate]
  cases s.violations <;> simp

end Service

theorem ValidService.ofService_eq_error_iff {s : Service} {v : Violation} :
    ofService s = .error v ↔ s.violations.head? = some v := by
  cases hviolations : s.violations with
  | nil => simp [ofService_eq_ok hviolations]
  | cons first rest => simp [ofService_eq_error hviolations]

theorem ValidService.ofService_eq_ok_iff {s : Service} {valid : ValidService} :
    ofService s = .ok valid ↔ s.violations = [] ∧ valid.service = s := by
  constructor
  · intro h
    cases hviolations : s.violations with
    | nil =>
        rw [ofService_eq_ok hviolations] at h
        cases h
        exact ⟨rfl, rfl⟩
    | cons first rest =>
        rw [ofService_eq_error hviolations] at h
        cases h
  · rintro ⟨hviolations, rfl⟩
    exact ofService_eq_ok hviolations

theorem Harness.Generator.ofService_eq_error_iff {s : Service} {e : GenerationError} :
    ofService s = .error e ↔ ∃ v, s.violations.head? = some v ∧ e = .validation v := by
  simp only [← ValidService.ofService_eq_error_iff, ofService]
  cases ValidService.ofService s <;> simp [eq_comm]

theorem Harness.Generator.ofService_eq_ok_iff {s : Service} {g : Generator} :
    ofService s = .ok g ↔ s.violations = [] ∧ g.service.service = s := by
  rw [← ValidService.ofService_eq_ok_iff, ofService]
  obtain ⟨valid⟩ := g
  cases ValidService.ofService s <;> simp

namespace Service

/--
The violations of a description are the rules that it breaks, each one once and
in order.  Everything that validates fails with the first of them, and succeeds
exactly if there is none; then it holds the description as it is.
-/
theorem violations_list_broken_rules (s : Service) :
    (∀ v, v ∈ s.violations ↔ s.Breaks v) ∧
      s.violations.Nodup ∧
      s.violations.Pairwise Violation.Before ∧
      (∀ v, s.validate = .error v ↔ s.violations.head? = some v) ∧
      (∀ v, ValidService.ofService s = .error v ↔ s.violations.head? = some v) ∧
      (∀ e, Generator.ofService s = .error e ↔
        ∃ v, s.violations.head? = some v ∧ e = .validation v) ∧
      (s.validate = .ok () ↔ s.violations = []) ∧
      (∀ valid, ValidService.ofService s = .ok valid ↔
        s.violations = [] ∧ valid.service = s) ∧
      ∀ g, Generator.ofService s = .ok g ↔ s.violations = [] ∧ g.service.service = s := by
  have hordered := (ordered_violations s).pairwise
  exact ⟨fun v => mem_violations_iff, hordered.imp Violation.Before.ne, hordered,
    fun v => validate_eq_error_iff, fun v => ValidService.ofService_eq_error_iff,
    fun e => Generator.ofService_eq_error_iff, validate_eq_ok_iff,
    fun valid => ValidService.ofService_eq_ok_iff, fun g => Generator.ofService_eq_ok_iff⟩

end Service

end ServiceHarness

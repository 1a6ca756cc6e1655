import Mathlib.Data.List.Basic
import ServiceHarness.Service.Violation

/-!
# Valid descriptions

When a description breaks no structural rule, in terms of its fields, and what
the constructor of valid descriptions gives in either case.
-/

namespace ServiceHarness

namespace Service

private theorem methodViolations_eq_nil_iff (broken : Method → Bool)
    (violation : Nat → Method → Violation) (methods : List Method) :
    methodViolations broken violation methods = [] ↔
      ∀ m ∈ methods, broken m = false := by
  rw [methodViolations, List.filterMap_eq_nil_iff]
  constructor
  · intro h m hm
    obtain ⟨index, hindex, rfl⟩ := List.getElem_of_mem hm
    have hmem : (methods[index], index) ∈ methods.zipIdx :=
      List.mk_mem_zipIdx_iff_getElem?.mpr (List.getElem?_eq_getElem hindex)
    simpa using h _ hmem
  · rintro h ⟨m, index⟩ hmem
    have hm : m ∈ methods := List.fst_mem_of_mem_zipIdx hmem
    simp [h m hm]

theorem violations_eq_nil_iff (s : Service) :
    s.violations = [] ↔
      s.package ≠ "" ∧ s.name ≠ "" ∧ s.methods ≠ [] ∧
        ∀ m ∈ s.methods, m.name ≠ "" ∧ m.request ≠ "" ∧ m.response ≠ "" := by
  simp only [violations, List.append_eq_nil_iff, methodViolations_eq_nil_iff,
    beq_eq_false_iff_ne, ite_eq_right_iff, List.cons_ne_nil, imp_false, and_assoc]
  constructor
  · rintro ⟨hpackage, hname, hmethods, hnames, hrequests, hresponses⟩
    exact ⟨hpackage, hname, hmethods, fun m hm =>
      ⟨hnames m hm, hrequests m hm, hresponses m hm⟩⟩
  · rintro ⟨hpackage, hname, hmethods, hall⟩
    exact ⟨hpackage, hname, hmethods, fun m hm => (hall m hm).1,
      fun m hm => (hall m hm).2.1, fun m hm => (hall m hm).2.2⟩

end Service

namespace ValidService

theorem ofService_eq_ok {s : Service} (h : s.violations = []) :
    ofService s = .ok ⟨s, h⟩ := by
  unfold ofService
  split
  · rfl
  · next violation rest hcons =>
      rw [h] at hcons
      contradiction

theorem ofService_eq_error {s : Service} {violation : Violation} {rest : List Violation}
    (h : s.violations = violation :: rest) : ofService s = .error violation := by
  unfold ofService
  split
  · next hnil =>
      rw [hnil] at h
      contradiction
  · next first others hcons =>
      rw [h] at hcons
      cases hcons
      rfl

end ValidService

end ServiceHarness

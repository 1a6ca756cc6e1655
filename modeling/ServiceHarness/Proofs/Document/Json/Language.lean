import ServiceHarness.Document.Reading
import ServiceHarness.Proofs.Document.Json.Records

/-!
# The documents that are accepted

A JSON document is accepted exactly if it is one of the language of
descriptions and within the size limit, and then as the service it describes.
-/

namespace ServiceHarness.Document.Json

open ServiceHarness.Text Cursor

/-! ## Methods -/

theorem formReads_method (n : Nat) :
    FormReads n methodForm StringValue StringValue StringValue where
  first := readsBelow_readString n
  second := readsBelow_readString n
  third := readsBelow_readString n
  distinct := by decide

theorem methodValue_iff {m : Method} {ts : List Token} :
    MethodValue m ts ↔
      RecordValue methodNames StringValue StringValue StringValue
        (m.name, m.request, m.response) ts := by
  constructor
  · exact fun h => ⟨_, _, _, rfl, rfl, rfl, h⟩
  · rintro ⟨_, _, _, rfl, rfl, rfl, h⟩
    exact h

theorem readMethod_ok_iff {c c' : Cursor} {m : Method} :
    readMethod c = .ok (m, c') ↔
      methodForm.read c = .ok ((m.name, m.request, m.response), c') := by
  rw [readMethod]
  cases methodForm.read c with
  | error fault => simp
  | ok next =>
      obtain ⟨⟨name, request, response⟩, k⟩ := next
      obtain ⟨name', request', response'⟩ := m
      simp

private theorem readsBelow_readMethod (n : Nat) : ReadsBelow n readMethod MethodValue where
  ok_iff hc := by
    simp only [readMethod_ok_iff, methodValue_iff]
    exact (readsBelow_record (formReads_method n)).ok_iff hc
  begins h := (methodValue_iff.mp h).begins

theorem length_lt_of_passes_item {m : Method} {first : Bool} {ts : List Token} {c c' : Cursor}
    (hvalue : MethodValue m ts) (h : c.Passes (separator first ++ ts) c') :
    c'.rest.length < c.rest.length := by
  obtain ⟨t, rest, rfl, -⟩ := (methodValue_iff.mp hvalue).begins
  have hlength := h.length_le
  rw [List.length_append, List.length_cons] at hlength
  omega

private theorem readMethodItems_succ_ok_iff {methods out : List Method} {c c' : Cursor}
    {rounds : Nat} :
    readMethodItems methods c (rounds + 1) = .ok (out, c') ↔
      (∃ m, nextItem methods.isEmpty c = .ok (false, m) ∧ out = methods.reverse ∧
        c' = m.advance) ∨
      ∃ x k, (∃ m, nextItem methods.isEmpty c = .ok (true, m) ∧ readMethod m = .ok (x, k)) ∧
        readMethodItems (x :: methods) k rounds = .ok (out, c') := by
  rw [readMethodItems]
  cases nextItem methods.isEmpty c with
  | error fault => simp
  | ok next =>
      obtain ⟨_ | _, m⟩ := next
      · simp [@eq_comm _ out, @eq_comm _ c']
      · cases hmethod : readMethod m with
        | error fault => simp [hmethod]
        | ok next =>
            obtain ⟨x, k⟩ := next
            simp [hmethod]

theorem readMethodItems_ok_iff {methods out : List Method} {c c' : Cursor} {rounds : Nat}
    (hc : c.rest.length < rounds) :
    readMethodItems methods c rounds = .ok (out, c') ↔
      ∃ later items, out = methods.reverse ++ later ∧ List.Forall₂ MethodValue later items ∧
        c.Passes (listed methods.isEmpty items ++ [.mark .closeBracket]) c' := by
  induction rounds generalizing methods c with
  | zero => exact absurd hc (Nat.not_lt_zero _)
  | succ rounds ih =>
      rw [readMethodItems_succ_ok_iff]
      simp only [nextItem_close_iff, (readsBelow_readMethod _).item_iff hc]
      constructor
      · rintro (⟨_, ⟨hpeek, rfl⟩, rfl, rfl⟩ | ⟨x, k, ⟨ts, hvalue, hpass⟩, hread⟩)
        · refine ⟨[], [], by rw [List.append_nil], .nil, ?_⟩
          exact passes_mark_iff.mpr ⟨hpeek, passes_nil_iff.mpr rfl⟩
        · have hk := length_lt_of_passes_item hvalue hpass
          obtain ⟨later, items, rfl, hvalues, hrest⟩ := (ih (by omega)).mp hread
          refine ⟨x :: later, ts :: items, by simp, .cons hvalue hvalues, ?_⟩
          have hall := passes_append_iff.mpr ⟨k, hpass, hrest⟩
          simpa [listed] using hall
      · rintro ⟨later, items, rfl, hvalues, hpass⟩
        cases hvalues with
        | nil =>
            obtain ⟨hpeek, hend⟩ := passes_mark_iff.mp hpass
            exact .inl ⟨_, ⟨hpeek, rfl⟩, by rw [List.append_nil], passes_nil_iff.mp hend⟩
        | @cons x ts later items hvalue hvalues =>
            have hall : c.Passes ((separator methods.isEmpty ++ ts) ++
                (listed false items ++ [.mark .closeBracket])) c' := by
              simpa [listed] using hpass
            obtain ⟨k, hitem, hrest⟩ := passes_append_iff.mp hall
            have hk := length_lt_of_passes_item hvalue hitem
            exact .inr ⟨x, k, ⟨ts, hvalue, hitem⟩,
              (ih (by omega)).mpr ⟨later, items, by simp, hvalues, hrest⟩⟩

def MethodsValue (methods : List Method) (ts : List Token) : Prop :=
  ∃ items, List.Forall₂ MethodValue methods items ∧ ts = array items

theorem readMethods_ok_iff {methods : List Method} {c c' : Cursor} {rounds : Nat}
    (hc : c.rest.length < rounds) :
    readMethods rounds c = .ok (methods, c') ↔
      ∃ items, List.Forall₂ MethodValue methods items ∧ c.Passes (array items) c' := by
  have hinside : c.skipBlanks.advance.rest.length < rounds := by
    have := c.length_skipBlanks_le
    have := c.skipBlanks.length_advance_le
    omega
  simp only [array_eq, passes_mark_iff]
  constructor
  · intro hread
    cases hpeek : c.skipBlanks.peek? with
    | none => simp [readMethods, hpeek] at hread
    | some byte =>
        simp only [readMethods, hpeek] at hread
        split_ifs at hread with hbracket
        obtain ⟨later, items, rfl, hvalues, hpass⟩ := (readMethodItems_ok_iff hinside).mp hread
        exact ⟨items, hvalues, congrArg some hbracket, hpass⟩
  · rintro ⟨items, hvalues, hpeek, hpass⟩
    simp only [readMethods, hpeek]
    exact (readMethodItems_ok_iff hinside).mpr ⟨methods, items, rfl, hvalues, hpass⟩

private theorem readsBelow_readMethods (rounds : Nat) :
    ReadsBelow rounds (readMethods rounds) MethodsValue where
  ok_iff hc := by
    rw [readMethods_ok_iff hc]
    constructor
    · rintro ⟨items, hvalues, hpass⟩
      exact ⟨_, ⟨items, hvalues, rfl⟩, hpass⟩
    · rintro ⟨_, ⟨items, hvalues, rfl⟩, hpass⟩
      exact ⟨items, hvalues, hpass⟩
  begins := by
    rintro methods _ ⟨items, -, rfl⟩
    exact ⟨_, _, array_eq items, show Mark.openBracket.byte ≠ _ by decide⟩

/-! ## Services -/

theorem formReads_service (n : Nat) :
    FormReads n (serviceForm n) StringValue StringValue MethodsValue where
  first := readsBelow_readString n
  second := readsBelow_readString n
  third := readsBelow_readMethods n
  distinct := show serviceNames.fields.Nodup by decide

private theorem serviceValue_iff {s : Service} {ts : List Token} :
    ServiceValue s ts ↔
      RecordValue serviceNames StringValue StringValue MethodsValue
        (s.package, s.name, s.methods) ts := by
  constructor
  · rintro ⟨items, hitems, h⟩
    exact ⟨_, _, _, rfl, rfl, ⟨items, hitems, rfl⟩, h⟩
  · rintro ⟨_, _, _, rfl, rfl, ⟨items, hitems, rfl⟩, h⟩
    exact ⟨items, hitems, h⟩

theorem denotes_iff {bytes : Bytes} {s : Service} :
    Denotes bytes s ↔
      ∃ ts c, ServiceValue s ts ∧ (ofBytes bytes).Passes ts c ∧ Blank c.rest := by
  constructor
  · rintro ⟨ts, front, back, hvalue, hwritten, hback, rfl⟩
    exact ⟨ts, ⟨back, front.foldl Position.after .start⟩, hvalue, ⟨front, hwritten, rfl, rfl⟩, hback⟩
  · rintro ⟨ts, c, hvalue, ⟨front, hwritten, hconsumes⟩, hback⟩
    exact ⟨ts, front, c.rest, hvalue, hwritten, hback, hconsumes.1⟩

theorem read_ok_iff {bytes : Bytes} {s : Service} : read bytes = .ok s ↔ Denotes bytes s := by
  have hrecord : ∀ c' v, (serviceForm (bytes.length + 1)).read (.ofBytes bytes) = .ok (v, c') ↔
      ∃ ts, ServiceValue ⟨v.1, v.2.1, v.2.2⟩ ts ∧ (ofBytes bytes).Passes ts c' := by
    intro c' v
    simp only [serviceValue_iff]
    exact (readsBelow_record (formReads_service _)).ok_iff (Nat.lt_succ_self bytes.length)
  rw [denotes_iff, read]
  constructor
  · intro h
    cases hread : (serviceForm (bytes.length + 1)).read (.ofBytes bytes) with
    | error fault => simp [hread] at h
    | ok next =>
        obtain ⟨⟨package, name, methods⟩, c⟩ := next
        simp only [hread] at h
        split_ifs at h with hend
        cases h
        obtain ⟨ts, hvalue, hpass⟩ := (hrecord _ _).mp hread
        exact ⟨ts, c, hvalue, hpass, rest_skipBlanks_eq_nil_iff.mp hend⟩
  · rintro ⟨ts, c, hvalue, hpass, hback⟩
    simp only [(hrecord c (s.package, s.name, s.methods)).mpr ⟨ts, hvalue, hpass⟩,
      if_pos (rest_skipBlanks_eq_nil_iff.mpr hback)]

end ServiceHarness.Document.Json

namespace ServiceHarness.Document

open ServiceHarness.Text

/-- A JSON document is accepted as a service exactly if it is within the limit
and describes that service.  It is too large exactly if it is beyond the limit,
and every other one is refused with a fault of its format. -/
theorem parse_json_accepts_exactly (bytes : Bytes) :
    (∀ s, parse .json bytes = .ok s ↔ bytes.length ≤ 1048576 ∧ Json.Denotes bytes s) ∧
    (parse .json bytes = .error .tooLarge ↔ 1048576 < bytes.length) ∧
    ((∃ cause, parse .json bytes = .error (.json cause)) ↔
      bytes.length ≤ 1048576 ∧ ∀ s, ¬Json.Denotes bytes s) := by
  simp only [← Json.read_ok_iff]
  by_cases hlarge : 1048576 < bytes.length
  · have hparse : parse .json bytes = .error .tooLarge := if_pos hlarge
    simp [hparse, hlarge, Nat.not_le.mpr hlarge]
  · simp only [parse, maxBytes]
    cases Json.read bytes with
    | error fault => simp [hlarge, Nat.le_of_not_lt hlarge]
    | ok s => simp [hlarge, Nat.le_of_not_lt hlarge]

end ServiceHarness.Document

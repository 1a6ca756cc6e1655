import ServiceHarness.Document.Toml.Reader
import ServiceHarness.Proofs.Document.Record
import ServiceHarness.Proofs.Document.Toml.Building

/-!
# Reading records from tables

A table whose keys are distinct is read as a record exactly if its values are
those of the fields, in any order.  The reader does not look whether a field is
filled already: that the keys are distinct keeps it from being filled twice.
-/

namespace ServiceHarness.Document.Toml

section Records

variable {α β γ : Type} {form : RecordForm α β γ} {A : α → Datum → Prop} {B : β → Datum → Prop}
  {C : γ → Datum → Prop}

/-- The readers of a record accept the values of its fields, wherever they stand. -/
structure FormReads (form : RecordForm α β γ) (A : α → Datum → Prop) (B : β → Datum → Prop)
    (C : γ → Datum → Prop) : Prop where
  first : ∀ {d : Located Datum} {a : α}, form.first d = .ok a ↔ A a d.value
  second : ∀ {d : Located Datum} {b : β}, form.second d = .ok b ↔ B b d.value
  third : ∀ {d : Located Datum} {c : γ}, form.third d = .ok c ↔ C c d.value
  distinct : form.names.fields.Nodup

def Gives {τ : Type} (field : String) (States : τ → Datum → Prop) (t : τ) (p : Pair) : Prop :=
  String.ofList p.1 = field ∧ States t p.2

/-- If a key names a field, then this field is empty. -/
structure FreeFor (names : RecordNames) (d : Draft α β γ) (key : List Char) : Prop where
  first : String.ofList key = names.first → d.first = none
  second : String.ofList key = names.second → d.second = none
  third : String.ofList key = names.third → d.third = none

private theorem freeFor_empty (names : RecordNames) (key : List Char) :
    FreeFor names (Draft.empty : Draft α β γ) key :=
  ⟨fun _ => rfl, fun _ => rfl, fun _ => rfl⟩

abbrev TakesPair (names : RecordNames) (A : α → Datum → Prop) (B : β → Datum → Prop)
    (C : γ → Datum → Prop) : Draft α β γ → Pair → Draft α β γ → Prop :=
  Draft.Takes (Gives names.first A) (Gives names.second B) (Gives names.third C)

abbrev FilledBy (names : RecordNames) (A : α → Datum → Prop) (B : β → Datum → Prop)
    (C : γ → Datum → Prop) : Draft α β γ → List Pair → α × β × γ → Prop :=
  Draft.Filled (Gives names.first A) (Gives names.second B) (Gives names.third C)

theorem readMember_ok_iff (h : FormReads form A B C) {d d' : Draft α β γ} {m : Member Datum}
    (hfree : FreeFor form.names d m.key) :
    form.readMember d m = .ok d' ↔ TakesPair form.names A B C d m.pair d' := by
  obtain ⟨hsecond, hthird, hother⟩ : form.names.first ≠ form.names.second ∧
      form.names.first ≠ form.names.third ∧ form.names.second ≠ form.names.third := by
    simpa [RecordNames.fields, and_assoc] using h.distinct
  simp only [TakesPair, Draft.takes_iff, Gives, Member.pair]
  rw [RecordForm.readMember]
  split_ifs with h₁ h₂ h₃
  · simp only [bind_pure_eq_ok_iff, h.first]
    simp [h₁, hsecond, hthird, hfree.first h₁]
  · simp only [bind_pure_eq_ok_iff, h.second]
    simp [h₂, hsecond.symm, hother, hfree.second h₂]
  · simp only [bind_pure_eq_ok_iff, h.third]
    simp [h₃, hthird.symm, hother.symm, hfree.third h₃]
  · simp [h₁, h₂, h₃]

theorem FreeFor.after {names : RecordNames} {d d' : Draft α β γ} {p : Pair} {key : List Char}
    (hfree : FreeFor names d key) (htakes : TakesPair names A B C d p d') (hne : p.1 ≠ key) :
    FreeFor names d' key := by
  have hname : String.ofList p.1 ≠ String.ofList key :=
    fun h => hne (String.ofList_injective h)
  cases htakes with
  | first hm => exact ⟨fun hkey => absurd (hm.1.trans hkey.symm) hname, hfree.second, hfree.third⟩
  | second hm => exact ⟨hfree.first, fun hkey => absurd (hm.1.trans hkey.symm) hname, hfree.third⟩
  | third hm => exact ⟨hfree.first, hfree.second, fun hkey => absurd (hm.1.trans hkey.symm) hname⟩

private theorem foldlM_readMember_iff (h : FormReads form A B C) {d : Draft α β γ} {ms : Members}
    {v : α × β × γ} (hdistinct : (keysOf (ms.map Member.pair)).Nodup)
    (hfree : ∀ m ∈ ms, FreeFor form.names d m.key) :
    (∃ d', ms.foldlM form.readMember d = .ok d' ∧ d'.finish form.names = .ok v) ↔
      FilledBy form.names A B C d (ms.map Member.pair) v := by
  induction ms generalizing d with
  | nil =>
      rw [List.map_nil, FilledBy, Draft.filled_nil_iff]
      constructor
      · rintro ⟨d', hd, hfinish⟩
        cases hd
        exact hfinish
      · exact fun hfinish => ⟨d, rfl, hfinish⟩
  | cons m ms ih =>
      obtain ⟨hm, hms⟩ := List.nodup_cons.mp hdistinct
      obtain ⟨hfirst, hlater⟩ := List.forall_mem_cons.mp hfree
      have hstill : ∀ e, TakesPair form.names A B C d m.pair e →
          ∀ n ∈ ms, FreeFor form.names e n.key := by
        intro e htakes n hn
        refine (hlater n hn).after htakes fun hkey => hm ?_
        rw [hkey]
        exact List.mem_map_of_mem (List.mem_map_of_mem hn)
      simp only [List.foldlM_cons, bind_eq_ok_iff, readMember_ok_iff h hfirst]
      constructor
      · rintro ⟨d', ⟨e, htakes, hrest⟩, hfinish⟩
        exact .step htakes ((ih hms (hstill e htakes)).mp ⟨d', hrest, hfinish⟩)
      · intro hfilled
        cases hfilled with
        | @step _ e _ _ _ htakes hfilled =>
            obtain ⟨d', hrest, hfinish⟩ := (ih hms (hstill e htakes)).mpr hfilled
            exact ⟨d', ⟨e, htakes, hrest⟩, hfinish⟩

theorem sortedMembers_perm (ms : Members) : (sortedMembers ms).Perm ms :=
  List.mergeSort_perm _ _

/-- A table with distinct keys is read exactly if it has a value for each field
and no other one. -/
theorem readTable_ok_iff (h : FormReads form A B C) {span : Span} {ms : Members} {v : α × β × γ}
    (hdistinct : (keysOf (ms.map Member.pair)).Nodup) :
    form.readTable span ms = .ok v ↔
      ∃ a b c, A v.1 a ∧ B v.2.1 b ∧ C v.2.2 c ∧
        (ms.map Member.pair).Perm [(form.names.first.toList, a), (form.names.second.toList, b),
          (form.names.third.toList, c)] := by
  have hperm := (sortedMembers_perm ms).map Member.pair
  have hsorted : (keysOf ((sortedMembers ms).map Member.pair)).Nodup :=
    (hperm.map Prod.fst).nodup_iff.mpr hdistinct
  have hread : form.readTable span ms = .ok v ↔ ∃ d',
      (sortedMembers ms).foldlM form.readMember .empty = .ok d' ∧
        d'.finish form.names = .ok v := by
    rw [RecordForm.readTable, bind_eq_ok_iff]
    refine exists_congr fun d' => and_congr_right fun _ => ?_
    cases d'.finish form.names with
    | error field => simp [throw, throwThe, MonadExceptOf.throw]
    | ok values => simp [pure, Except.pure]
  rw [hread, foldlM_readMember_iff h hsorted fun m _ => freeFor_empty _ m.key, FilledBy,
    Draft.filled_empty_iff]
  constructor
  · rintro ⟨⟨_, a⟩, ⟨_, b⟩, ⟨_, c⟩, ⟨hfirst, ha⟩, ⟨hsecond, hb⟩, ⟨hthird, hc⟩, hall⟩
    refine ⟨a, b, c, ha, hb, hc, hperm.symm.trans ?_⟩
    rw [← hfirst, ← hsecond, ← hthird]
    simpa using hall
  · rintro ⟨a, b, c, ha, hb, hc, hall⟩
    exact ⟨_, _, _, ⟨String.ofList_toList, ha⟩, ⟨String.ofList_toList, hb⟩,
      ⟨String.ofList_toList, hc⟩, hperm.trans hall⟩

end Records

/-! ## Methods -/

def StringDatum (s : String) (d : Datum) : Prop := d = .string s.toList

theorem readString_ok_iff {d : Located Datum} {s : String} :
    readString d = .ok s ↔ StringDatum s d.value := by
  obtain ⟨span, d⟩ := d
  cases d with
  | string chars =>
      simp only [readString, StringDatum, Datum.string.injEq, Except.ok.injEq]
      exact ⟨fun h => by rw [← h, String.toList_ofList], fun h => by rw [h, String.ofList_toList]⟩
  | _ => simp [readString, StringDatum]

theorem formReads_method : FormReads methodForm StringDatum StringDatum StringDatum where
  first := readString_ok_iff
  second := readString_ok_iff
  third := readString_ok_iff
  distinct := by decide

def textPair (text : String × String) : Pair := (text.1.toList, .string text.2.toList)

def MethodPairs (m : Method) (pairs : List Pair) : Prop :=
  pairs.Perm ((methodTexts m).map textPair)

theorem readMethod_ok_iff {item : Located Datum} {pairs : List Pair} {m : Method}
    (hitem : ItemShows item pairs) (hdistinct : (keysOf pairs).Nodup) :
    readMethod item = .ok m ↔ MethodPairs m pairs := by
  obtain ⟨members, hvalue, rfl⟩ := hitem
  have hread : readMethod item = .ok m ↔
      methodForm.readTable item.span members = .ok (m.name, m.request, m.response) := by
    rw [readMethod, RecordForm.read, hvalue, map_eq_ok_iff]
    constructor
    · rintro ⟨_, hv, rfl⟩
      exact hv
    · exact fun hv => ⟨_, hv, rfl⟩
  rw [hread, readTable_ok_iff formReads_method hdistinct]
  constructor
  · rintro ⟨_, _, _, rfl, rfl, rfl, hperm⟩
    exact hperm
  · exact fun hperm => ⟨_, _, _, rfl, rfl, rfl, hperm⟩

abbrev ReadAs : List Method → List (Located Datum) → Prop :=
  List.Forall₂ fun m item => readMethod item = .ok m

theorem readMethodItems_ok_iff {done methods : List Method} {items : List (Located Datum)} :
    readMethodItems done items = .ok methods ↔
      ∃ later, methods = done.reverse ++ later ∧ ReadAs later items := by
  induction items generalizing done with
  | nil => simp [readMethodItems, eq_comm]
  | cons item items ih =>
      rw [readMethodItems]
      cases hitem : readMethod item with
      | error fault =>
          constructor
          · intro h
            cases h
          · rintro ⟨_, -, hlater⟩
            cases hlater with
            | cons hm _ =>
                rw [hitem] at hm
                cases hm
      | ok m =>
          simp only [ih, List.reverse_cons, List.append_assoc, List.singleton_append]
          constructor
          · rintro ⟨later, rfl, hlater⟩
            exact ⟨m :: later, rfl, .cons hitem hlater⟩
          · rintro ⟨_, rfl, hlater⟩
            cases hlater with
            | @cons m' _ later _ hm hlater =>
                obtain rfl : m = m' := Except.ok.inj (hitem.symm.trans hm)
                exact ⟨later, rfl, hlater⟩

def MethodsDatum (methods : List Method) (d : Datum) : Prop :=
  ∃ items, (d = .array items ∨ d = .tables items.reverse) ∧ ReadAs methods items

theorem readMethods_ok_iff {d : Located Datum} {methods : List Method} :
    readMethods d = .ok methods ↔ MethodsDatum methods d.value := by
  obtain ⟨span, d⟩ := d
  cases d with
  | array items => simp [readMethods, readMethodItems_ok_iff, MethodsDatum]
  | tables reversed =>
      simp only [readMethods, readMethodItems_ok_iff, MethodsDatum, List.reverse_nil,
        List.nil_append, exists_eq_left', reduceCtorEq, false_or, Datum.tables.injEq]
      constructor
      · exact fun h => ⟨reversed.reverse, (List.reverse_reverse reversed).symm, h⟩
      · rintro ⟨items, rfl, h⟩
        rwa [List.reverse_reverse]
  | _ => simp [readMethods, MethodsDatum]

theorem formReads_service : FormReads serviceForm StringDatum StringDatum MethodsDatum where
  first := readString_ok_iff
  second := readString_ok_iff
  third := readMethods_ok_iff
  distinct := show serviceNames.fields.Nodup by decide

end ServiceHarness.Document.Toml

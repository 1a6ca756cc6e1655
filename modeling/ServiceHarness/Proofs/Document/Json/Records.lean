import Mathlib.Data.String.Basic
import ServiceHarness.Proofs.Document.Json.Tokens
import ServiceHarness.Proofs.Document.Record
import ServiceHarness.Proofs.Outcome

/-!
# Reading records

Each reader accepts the tokens of its values and nothing else.  This is stated
for cursors with a bounded number of bytes ahead, because the reader of methods
has a limit that no document reaches.
-/

namespace ServiceHarness.Document.Json

open ServiceHarness.Text Cursor

/-- A reader accepts exactly the tokens of its values, from every cursor with
fewer than `n` bytes ahead; no value begins like the end of an array. -/
structure ReadsBelow {α : Type} (n : Nat) (read : Cursor → Read α)
    (Value : α → List Token → Prop) : Prop where
  ok_iff : ∀ {c c' : Cursor} {a : α}, c.rest.length < n →
    (read c = .ok (a, c') ↔ ∃ ts, Value a ts ∧ c.Passes ts c')
  begins : ∀ {a : α} {ts : List Token}, Value a ts →
    ∃ t rest, ts = t :: rest ∧ t.first ≠ Mark.closeBracket.byte

/-! ## Strings -/

theorem readString_ok_iff {c c' : Cursor} {s : String} :
    readString c = .ok (s, c') ↔ c.Passes [.string s] c' := by
  simp only [passes_string_iff, passes_nil_iff]
  cases hpeek : c.skipBlanks.peek? with
  | none => simp [readString, hpeek]
  | some byte =>
      simp only [readString, hpeek]
      split_ifs with hquote
      · cases hread : c.skipBlanks.advance.readText with
        | error fault => simp
        | ok read =>
            obtain ⟨chars, m⟩ := read
            simp [hquote, quoteMark, String.ofList_eq, @eq_comm _ m c']
      · simpa [quoteMark] using fun h => absurd h hquote

def StringValue (s : String) (ts : List Token) : Prop := ts = [.string s]

theorem readsBelow_readString (n : Nat) : ReadsBelow n readString StringValue where
  ok_iff _ := by simp [readString_ok_iff, StringValue]
  begins h := ⟨_, [], h, show quoteMark ≠ Mark.closeBracket.byte by decide⟩

/-! ## Items and members -/

def separator (first : Bool) : List Token := if first then [] else [.mark .comma]

theorem nextItem_close_iff {first : Bool} {c c' : Cursor} :
    nextItem first c = .ok (false, c') ↔
      c.skipBlanks.peek? = some Mark.closeBracket.byte ∧ c' = c.skipBlanks := by
  cases hpeek : c.skipBlanks.peek? with
  | none => simp [nextItem, hpeek]
  | some byte =>
      simp only [nextItem, hpeek]
      split_ifs with hclose hfirst hcomma
      · simp [hclose, Mark.byte, eq_comm]
      · simp [hclose, Mark.byte]
      · cases c.skipBlanks.advance.skipBlanks.peek? with
        | none => simp [hclose, Mark.byte]
        | some next => by_cases hnext : next = 93 <;> simp [hclose, hnext, Mark.byte]
      · simp [hclose, Mark.byte]

def AtItem (c : Cursor) : Prop :=
  ∃ byte, c.peek? = some byte ∧ byte ≠ Mark.closeBracket.byte

private theorem nextItem_open_iff {first : Bool} {c c' : Cursor} :
    nextItem first c = .ok (true, c') ↔
      ∃ m, c.Passes (separator first) m ∧ c' = m.skipBlanks ∧ AtItem c' := by
  cases first with
  | true =>
      simp only [separator, if_true, passes_nil_iff, exists_eq_left]
      constructor
      · intro h
        cases hpeek : c.skipBlanks.peek? with
        | none => simp [nextItem, hpeek] at h
        | some byte =>
            simp only [nextItem, hpeek, if_true] at h
            split_ifs at h with hclose
            · simp at h
            · cases h
              exact ⟨rfl, byte, hpeek, hclose⟩
      · rintro ⟨rfl, byte, hpeek, hclose⟩
        simp only [nextItem, hpeek, if_true]
        exact if_neg hclose
  | false =>
      simp only [separator, passes_mark_iff, passes_nil_iff, Bool.false_eq_true, if_false]
      constructor
      · intro h
        cases hpeek : c.skipBlanks.peek? with
        | none => simp [nextItem, hpeek] at h
        | some byte =>
            simp only [nextItem, hpeek, Bool.false_eq_true, if_false] at h
            split_ifs at h with hclose hcomma
            · simp at h
            · cases hnext : c.skipBlanks.advance.skipBlanks.peek? with
              | none => simp [hnext] at h
              | some next =>
                  simp only [hnext] at h
                  split_ifs at h with hclose'
                  cases h
                  exact ⟨_, ⟨by rw [hcomma]; rfl, rfl⟩, rfl, next, hnext, hclose'⟩
      · rintro ⟨m, ⟨hcomma, rfl⟩, rfl, next, hnext, hclose⟩
        simp only [nextItem, hcomma, hnext, Bool.false_eq_true, if_false]
        exact if_neg hclose

section Items

variable {α : Type} {n : Nat} {read : Cursor → Read α} {Value : α → List Token → Prop}

theorem ReadsBelow.item_iff (h : ReadsBelow n read Value) {first : Bool} {c c' : Cursor} {a : α}
    (hc : c.rest.length < n) :
    (∃ m, nextItem first c = .ok (true, m) ∧ read m = .ok (a, c')) ↔
      ∃ ts, Value a ts ∧ c.Passes (separator first ++ ts) c' := by
  simp only [nextItem_open_iff, passes_append_iff]
  constructor
  · rintro ⟨_, ⟨m, hsep, rfl, -⟩, hread⟩
    have hm : m.skipBlanks.rest.length < n := by
      have := hsep.length_le
      have := m.length_skipBlanks_le
      omega
    obtain ⟨ts, hvalue, hts⟩ := (h.ok_iff hm).mp hread
    obtain ⟨t, rest, rfl, -⟩ := h.begins hvalue
    exact ⟨_, hvalue, m, hsep, passes_skipBlanks_iff.mp hts⟩
  · rintro ⟨ts, hvalue, m, hsep, hts⟩
    have hm : m.skipBlanks.rest.length < n := by
      have := hsep.length_le
      have := m.length_skipBlanks_le
      omega
    obtain ⟨t, rest, rfl, hfirst⟩ := h.begins hvalue
    exact ⟨_, ⟨m, hsep, rfl, t.first, hts.peek?_eq, hfirst⟩,
      (h.ok_iff hm).mpr ⟨_, hvalue, passes_skipBlanks_iff.mpr hts⟩⟩

theorem readItem_ok_iff (h : ReadsBelow n read Value) {α' β' γ' : Type}
    {form : RecordForm α' β' γ'} {count : Nat} {c c' : Cursor} {a : α} (hc : c.rest.length < n) :
    form.readItem read count c = .ok (a, c') ↔
      ∃ ts, Value a ts ∧ c.Passes (separator (count == 0) ++ ts) c' := by
  rw [← h.item_iff hc, RecordForm.readItem]
  cases nextItem (count == 0) c with
  | error fault => simp
  | ok next =>
      obtain ⟨_ | _, m⟩ := next <;> simp

end Items

theorem closeArray_ok_iff {c c' : Cursor} :
    closeArray c = .ok c' ↔ c.Passes [.mark .closeBracket] c' := by
  simp only [passes_mark_iff, passes_nil_iff]
  cases hpeek : c.skipBlanks.peek? with
  | none => simp [closeArray, hpeek]
  | some byte =>
      simp only [closeArray, hpeek]
      split_ifs with hclose hcomma
      · simp [hclose, Mark.byte, eq_comm]
      · simp [hclose, Mark.byte]
      · simp [hclose, Mark.byte]

theorem readColon_ok_iff {c c' : Cursor} :
    readColon c = .ok c' ↔ c.Passes [.mark .colon] c' := by
  simp only [passes_mark_iff, passes_nil_iff]
  cases hpeek : c.skipBlanks.peek? with
  | none => simp [readColon, hpeek]
  | some byte =>
      simp only [readColon, hpeek]
      split_ifs with hcolon
      · simp [hcolon, Mark.byte, eq_comm]
      · simp [hcolon, Mark.byte]

private theorem passes_colon_iff {c c' : Cursor} {ts : List Token} :
    c.Passes (.mark .colon :: ts) c' ↔ ∃ m, readColon c = .ok m ∧ m.Passes ts c' := by
  rw [← List.singleton_append, passes_append_iff]
  simp only [readColon_ok_iff]

private theorem nextKey_close_iff {first : Bool} {c c' : Cursor} :
    nextKey first c = .ok (false, c') ↔
      c.skipBlanks.peek? = some Mark.closeBrace.byte ∧ c' = c.skipBlanks := by
  cases hpeek : c.skipBlanks.peek? with
  | none => simp [nextKey, hpeek]
  | some byte =>
      simp only [nextKey, hpeek]
      split_ifs with hclose hfirst hquote hcomma
      · simp [hclose, Mark.byte, eq_comm]
      · simp [hclose, Mark.byte]
      · simp [hclose, Mark.byte]
      · cases c.skipBlanks.advance.skipBlanks.peek? with
        | none => simp [hclose, Mark.byte]
        | some next =>
            simp only
            split_ifs <;> simp [hclose, Mark.byte]
      · simp [hclose, Mark.byte]

private theorem nextKey_open_iff {first : Bool} {c c' : Cursor} :
    nextKey first c = .ok (true, c') ↔
      ∃ m, c.Passes (separator first) m ∧ c' = m.skipBlanks ∧ c'.peek? = some quoteMark := by
  cases first with
  | true =>
      simp only [separator, if_true, passes_nil_iff, exists_eq_left]
      constructor
      · intro h
        cases hpeek : c.skipBlanks.peek? with
        | none => simp [nextKey, hpeek] at h
        | some byte =>
            simp only [nextKey, hpeek, if_true] at h
            split_ifs at h with hclose hquote
            · simp at h
            · cases h
              exact ⟨rfl, hpeek.trans (congrArg some hquote)⟩
      · rintro ⟨rfl, hquote⟩
        simp only [nextKey, hquote, if_true]
        rfl
  | false =>
      simp only [separator, passes_mark_iff, passes_nil_iff, Bool.false_eq_true, if_false]
      constructor
      · intro h
        cases hpeek : c.skipBlanks.peek? with
        | none => simp [nextKey, hpeek] at h
        | some byte =>
            simp only [nextKey, hpeek, Bool.false_eq_true, if_false] at h
            split_ifs at h with hclose hcomma
            · simp at h
            · cases hnext : c.skipBlanks.advance.skipBlanks.peek? with
              | none => simp [hnext] at h
              | some next =>
                  simp only [hnext] at h
                  split_ifs at h with hquote
                  cases h
                  exact ⟨_, ⟨by rw [hcomma]; rfl, rfl⟩, rfl, hnext.trans (congrArg some hquote)⟩
      · rintro ⟨m, ⟨hcomma, rfl⟩, rfl, hquote⟩
        simp only [nextKey, hcomma, hquote, Bool.false_eq_true, if_false]
        rfl

private theorem key_iff {first : Bool} {c c' : Cursor} {chars : List Char} :
    (∃ m, nextKey first c = .ok (true, m) ∧ m.advance.readText = .ok (chars, c')) ↔
      c.Passes (separator first ++ [.string (String.ofList chars)]) c' := by
  simp only [nextKey_open_iff, passes_append_iff, passes_string_iff, passes_nil_iff,
    String.toList_ofList]
  constructor
  · rintro ⟨_, ⟨m, hsep, rfl, hquote⟩, hread⟩
    exact ⟨m, hsep, hquote, c', hread, rfl⟩
  · rintro ⟨m, hsep, hquote, _, hread, rfl⟩
    exact ⟨_, ⟨m, hsep, rfl, hquote⟩, hread⟩

/-! ## Objects and arrays -/

def listed (first : Bool) : List (List Token) → List Token
  | [] => []
  | item :: items => separator first ++ item ++ listed false items

private theorem listed_true (items : List (List Token)) :
    listed true items = [.mark .comma].intercalate items := by
  cases items with
  | nil => rfl
  | cons item items =>
      simp only [listed, separator, if_true, List.nil_append]
      induction items generalizing item with
      | nil => simp [listed]
      | cons next items ih =>
          rw [List.intercalate_cons_cons, ← ih]
          simp [listed, separator]

private theorem object_eq (entries : List Entry) :
    object entries =
      .mark .openBrace :: (listed true (entries.map Entry.tokens) ++ [.mark .closeBrace]) := by
  rw [object, listed_true, List.cons_append]

theorem array_eq (items : List (List Token)) :
    array items = .mark .openBracket :: (listed true items ++ [.mark .closeBracket]) := by
  rw [array, listed_true, List.cons_append]

section Records

variable {α β γ : Type} {n : Nat} {form : RecordForm α β γ}
  {A : α → List Token → Prop} {B : β → List Token → Prop} {C : γ → List Token → Prop}

/-- The readers of a record accept the values of its fields. -/
structure FormReads (n : Nat) (form : RecordForm α β γ) (A : α → List Token → Prop)
    (B : β → List Token → Prop) (C : γ → List Token → Prop) : Prop where
  first : ReadsBelow n form.first A
  second : ReadsBelow n form.second B
  third : ReadsBelow n form.third C
  distinct : form.names.fields.Nodup

def Member {τ : Type} (key : String) (Value : τ → List Token → Prop) (a : τ) (e : Entry) : Prop :=
  e.1 = key ∧ Value a e.2

theorem readField_ok_iff {τ : Type} {read : Cursor → Read τ} {Value : τ → List Token → Prop}
    (h : ReadsBelow n read Value) {set : τ → Draft α β γ} {key : String} {old : Option τ}
    {c c' : Cursor} {d : Draft α β γ} (hc : c.rest.length < n) :
    RecordForm.readField read set key old c = .ok (d, c') ↔
      ∃ ts, (old = none ∧ ∃ a, Value a ts ∧ d = set a) ∧ c.Passes (.mark .colon :: ts) c' := by
  cases old with
  | some a => simp [RecordForm.readField]
  | none =>
      simp only [passes_colon_iff]
      constructor
      · intro hfield
        rw [RecordForm.readField] at hfield
        cases hcolon : readColon c with
        | error fault => simp [hcolon] at hfield
        | ok m =>
            have hm := (readColon_ok_iff.mp hcolon).length_le
            cases hread : read m with
            | error fault => simp [hcolon, hread] at hfield
            | ok next =>
                obtain ⟨a, m'⟩ := next
                simp only [hcolon, hread] at hfield
                cases hfield
                obtain ⟨ts, hvalue, hts⟩ := (h.ok_iff (by omega)).mp hread
                exact ⟨ts, ⟨trivial, a, hvalue, rfl⟩, m, rfl, hts⟩
      · rintro ⟨ts, ⟨-, a, hvalue, rfl⟩, m, hcolon, hts⟩
        have hm := (readColon_ok_iff.mp hcolon).length_le
        simp only [RecordForm.readField, hcolon, (h.ok_iff (by omega)).mpr ⟨ts, hvalue, hts⟩]

theorem readMember_ok_iff (h : FormReads n form A B C) {d d' : Draft α β γ} {key : String}
    {c c' : Cursor} (hc : c.rest.length < n) :
    form.readMember d key c = .ok (d', c') ↔
      ∃ ts, Draft.Takes (Member form.names.first A) (Member form.names.second B)
        (Member form.names.third C) d (key, ts) d' ∧ c.Passes (.mark .colon :: ts) c' := by
  obtain ⟨hsecond, hthird, hother⟩ : form.names.first ≠ form.names.second ∧
      form.names.first ≠ form.names.third ∧ form.names.second ≠ form.names.third := by
    simpa [RecordNames.fields, and_assoc] using h.distinct
  simp only [Draft.takes_iff, Member]
  rw [RecordForm.readMember]
  split_ifs with h₁ h₂ h₃
  · simp [readField_ok_iff h.first hc, h₁, hsecond, hthird]
  · simp [readField_ok_iff h.second hc, h₂, hsecond.symm, hother]
  · simp [readField_ok_iff h.third hc, h₃, hthird.symm, hother.symm]
  · simp [h₁, h₂, h₃]

theorem closeObject_ok_iff {d : Draft α β γ} {v : α × β × γ} {c c' : Cursor} :
    form.closeObject d c = .ok (v, c') ↔ d.finish form.names = .ok v ∧ c' = c.advance := by
  rw [RecordForm.closeObject]
  cases d.finish form.names with
  | error field => simp
  | ok values => simp [@eq_comm _ c']

private theorem readMembers_succ_ok_iff {d : Draft α β γ} {first : Bool} {c c' : Cursor}
    {v : α × β × γ} {rounds : Nat} :
    form.readMembers d first c (rounds + 1) = .ok (v, c') ↔
      (∃ m, nextKey first c = .ok (false, m) ∧ form.closeObject d m = .ok (v, c')) ∨
      ∃ chars k, (∃ m, nextKey first c = .ok (true, m) ∧ m.advance.readText = .ok (chars, k)) ∧
        ∃ d' m, form.readMember d (String.ofList chars) k = .ok (d', m) ∧
          form.readMembers d' false m rounds = .ok (v, c') := by
  rw [RecordForm.readMembers]
  cases nextKey first c with
  | error fault => simp
  | ok next =>
      obtain ⟨_ | _, m⟩ := next
      · simp
      · cases hkey : m.advance.readText with
        | error fault => simp [hkey]
        | ok next =>
            obtain ⟨chars, k⟩ := next
            cases hmember : form.readMember d (String.ofList chars) k with
            | error fault => simp [hkey, hmember]
            | ok next =>
                obtain ⟨d', m'⟩ := next
                simp [hkey, hmember]

private theorem readMembers_ok_iff (h : FormReads n form A B C) {d : Draft α β γ} {first : Bool}
    {c c' : Cursor} {v : α × β × γ} {rounds : Nat} (hc : c.rest.length < n) :
    form.readMembers d first c rounds = .ok (v, c') ↔
      ∃ entries, Draft.Filled (Member form.names.first A) (Member form.names.second B)
        (Member form.names.third C) d entries v ∧ entries.length < rounds ∧
        c.Passes (listed first (entries.map Entry.tokens) ++ [.mark .closeBrace]) c' := by
  induction rounds generalizing d first c with
  | zero => simp [RecordForm.readMembers]
  | succ rounds ih =>
      rw [readMembers_succ_ok_iff]
      simp only [nextKey_close_iff, closeObject_ok_iff, key_iff]
      constructor
      · rintro (⟨_, ⟨hpeek, rfl⟩, hfinish, rfl⟩ | ⟨chars, k, hkey, d', m, hmember, hread⟩)
        · refine ⟨[], Draft.filled_nil_iff.mpr hfinish, Nat.succ_pos rounds, ?_⟩
          exact passes_mark_iff.mpr ⟨hpeek, passes_nil_iff.mpr rfl⟩
        · have hk := hkey.length_le
          obtain ⟨ts, htakes, hvalue⟩ := (readMember_ok_iff h (by omega)).mp hmember
          have hm := hvalue.length_le
          obtain ⟨entries, hfilled, hlength, hrest⟩ := (ih (by omega)).mp hread
          refine ⟨(String.ofList chars, ts) :: entries, .step htakes hfilled,
            Nat.succ_lt_succ hlength, ?_⟩
          have hall := passes_append_iff.mpr ⟨k, hkey, passes_append_iff.mpr ⟨m, hvalue, hrest⟩⟩
          simpa [listed, Entry.tokens] using hall
      · rintro ⟨entries, hfilled, hlength, hpass⟩
        cases entries with
        | nil =>
            obtain ⟨hpeek, hend⟩ := passes_mark_iff.mp hpass
            exact .inl ⟨_, ⟨hpeek, rfl⟩, Draft.filled_nil_iff.mp hfilled, passes_nil_iff.mp hend⟩
        | cons e entries =>
            obtain ⟨key, ts⟩ := e
            cases hfilled with
            | @step _ d' _ _ _ htakes hfilled =>
                have hall : c.Passes ((separator first ++ [.string key]) ++ ((.mark .colon :: ts) ++
                    (listed false (entries.map Entry.tokens) ++ [.mark .closeBrace]))) c' := by
                  simpa [listed, Entry.tokens] using hpass
                obtain ⟨k, hkey, hall⟩ := passes_append_iff.mp hall
                obtain ⟨m, hvalue, hrest⟩ := passes_append_iff.mp hall
                have hk := hkey.length_le
                have hm := hvalue.length_le
                refine .inr ⟨key.toList, k, by rwa [String.ofList_toList], d', m, ?_, ?_⟩
                · rw [String.ofList_toList]
                  exact (readMember_ok_iff h (by omega)).mpr ⟨ts, htakes, hvalue⟩
                · exact (ih (by omega)).mpr ⟨entries, hfilled, Nat.lt_of_succ_lt_succ hlength, hrest⟩

theorem readMembers_empty_ok_iff (h : FormReads n form A B C) {c c' : Cursor} {v : α × β × γ}
    (hc : c.rest.length < n) :
    form.readMembers .empty true c 4 = .ok (v, c') ↔
      ∃ t₁ t₂ t₃, ∃ entries : List Entry, A v.1 t₁ ∧ B v.2.1 t₂ ∧ C v.2.2 t₃ ∧
        entries.Perm [(form.names.first, t₁), (form.names.second, t₂), (form.names.third, t₃)] ∧
        c.Passes (listed true (entries.map Entry.tokens) ++ [.mark .closeBrace]) c' := by
  simp only [readMembers_ok_iff h hc, Draft.filled_empty_iff, Member]
  constructor
  · rintro ⟨entries, ⟨⟨_, t₁⟩, ⟨_, t₂⟩, ⟨_, t₃⟩, ⟨rfl, h₁⟩, ⟨rfl, h₂⟩, ⟨rfl, h₃⟩, hperm⟩, -, hpass⟩
    exact ⟨t₁, t₂, t₃, entries, h₁, h₂, h₃, hperm, hpass⟩
  · rintro ⟨t₁, t₂, t₃, entries, h₁, h₂, h₃, hperm, hpass⟩
    exact ⟨entries, ⟨_, _, _, ⟨rfl, h₁⟩, ⟨rfl, h₂⟩, ⟨rfl, h₃⟩, hperm⟩,
      by simp [hperm.length_eq], hpass⟩

theorem readItems_ok_iff (h : FormReads n form A B C) {c c' : Cursor} {v : α × β × γ}
    (hc : c.rest.length < n) :
    form.readItems c = .ok (v, c') ↔
      ∃ t₁ t₂ t₃, A v.1 t₁ ∧ B v.2.1 t₂ ∧ C v.2.2 t₃ ∧
        c.Passes (listed true [t₁, t₂, t₃] ++ [.mark .closeBracket]) c' := by
  obtain ⟨a, b, x⟩ := v
  simp only [RecordForm.readItems, bind_eq_ok_iff, Prod.exists]
  constructor
  · rintro ⟨a, m₁, h₁, b, m₂, h₂, x, m₃, h₃, m₄, hclose, hpure⟩
    cases hpure
    obtain ⟨t₁, hvalue₁, hpass₁⟩ := (readItem_ok_iff h.first hc).mp h₁
    have hm₁ := hpass₁.length_le
    obtain ⟨t₂, hvalue₂, hpass₂⟩ := (readItem_ok_iff h.second (by omega)).mp h₂
    have hm₂ := hpass₂.length_le
    obtain ⟨t₃, hvalue₃, hpass₃⟩ := (readItem_ok_iff h.third (by omega)).mp h₃
    refine ⟨t₁, t₂, t₃, hvalue₁, hvalue₂, hvalue₃, ?_⟩
    have hall := passes_append_iff.mpr ⟨m₁, hpass₁, passes_append_iff.mpr ⟨m₂, hpass₂,
      passes_append_iff.mpr ⟨m₃, hpass₃, closeArray_ok_iff.mp hclose⟩⟩⟩
    simpa [listed] using hall
  · rintro ⟨t₁, t₂, t₃, hvalue₁, hvalue₂, hvalue₃, hpass⟩
    have hall : c.Passes ((separator true ++ t₁) ++ ((separator false ++ t₂) ++
        ((separator false ++ t₃) ++ [.mark .closeBracket]))) c' := by
      simpa [listed] using hpass
    obtain ⟨m₁, hpass₁, hall⟩ := passes_append_iff.mp hall
    obtain ⟨m₂, hpass₂, hall⟩ := passes_append_iff.mp hall
    obtain ⟨m₃, hpass₃, hclose⟩ := passes_append_iff.mp hall
    have hm₁ := hpass₁.length_le
    have hm₂ := hpass₂.length_le
    exact ⟨a, m₁, (readItem_ok_iff h.first hc).mpr ⟨t₁, hvalue₁, hpass₁⟩,
      b, m₂, (readItem_ok_iff h.second (by omega)).mpr ⟨t₂, hvalue₂, hpass₂⟩,
      x, m₃, (readItem_ok_iff h.third (by omega)).mpr ⟨t₃, hvalue₃, hpass₃⟩,
      c', closeArray_ok_iff.mpr hclose, rfl⟩

/-- The values of a record: an object with its fields or an array of them. -/
def RecordValue (names : RecordNames) (A : α → List Token → Prop) (B : β → List Token → Prop)
    (C : γ → List Token → Prop) (v : α × β × γ) (ts : List Token) : Prop :=
  ∃ t₁ t₂ t₃, A v.1 t₁ ∧ B v.2.1 t₂ ∧ C v.2.2 t₃ ∧
    Record [(names.first, t₁), (names.second, t₂), (names.third, t₃)] ts

theorem readRecord_ok_iff (h : FormReads n form A B C) {c c' : Cursor} {v : α × β × γ}
    (hc : c.rest.length < n) :
    form.read c = .ok (v, c') ↔ ∃ ts, RecordValue form.names A B C v ts ∧ c.Passes ts c' := by
  have hinside : c.skipBlanks.advance.rest.length < n := by
    have := c.length_skipBlanks_le
    have := c.skipBlanks.length_advance_le
    omega
  constructor
  · intro hread
    cases hpeek : c.skipBlanks.peek? with
    | none => simp [RecordForm.read, hpeek] at hread
    | some byte =>
        simp only [RecordForm.read, hpeek] at hread
        split_ifs at hread with hbracket hbrace
        · obtain ⟨t₁, t₂, t₃, h₁, h₂, h₃, hpass⟩ := (readItems_ok_iff h hinside).mp hread
          refine ⟨_, ⟨t₁, t₂, t₃, h₁, h₂, h₃, .array⟩, ?_⟩
          rw [array_eq]
          exact passes_mark_iff.mpr ⟨hpeek.trans (congrArg some hbracket), hpass⟩
        · obtain ⟨t₁, t₂, t₃, entries, h₁, h₂, h₃, hperm, hpass⟩ :=
            (readMembers_empty_ok_iff h hinside).mp hread
          refine ⟨_, ⟨t₁, t₂, t₃, h₁, h₂, h₃, .object hperm⟩, ?_⟩
          rw [object_eq]
          exact passes_mark_iff.mpr ⟨hpeek.trans (congrArg some hbrace), hpass⟩
  · rintro ⟨_, ⟨t₁, t₂, t₃, h₁, h₂, h₃, hrecord⟩, hpass⟩
    cases hrecord with
    | array =>
        rw [array_eq] at hpass
        obtain ⟨hpeek, hpass⟩ := passes_mark_iff.mp hpass
        simp only [RecordForm.read, hpeek]
        exact (readItems_ok_iff h hinside).mpr ⟨t₁, t₂, t₃, h₁, h₂, h₃, hpass⟩
    | object hperm =>
        rw [object_eq] at hpass
        obtain ⟨hpeek, hpass⟩ := passes_mark_iff.mp hpass
        simp only [RecordForm.read, hpeek]
        exact (readMembers_empty_ok_iff h hinside).mpr ⟨t₁, t₂, t₃, _, h₁, h₂, h₃, hperm, hpass⟩

theorem RecordValue.begins {names : RecordNames} {v : α × β × γ} {ts : List Token}
    (h : RecordValue names A B C v ts) :
    ∃ t rest, ts = t :: rest ∧ t.first ≠ Mark.closeBracket.byte := by
  obtain ⟨_, _, _, -, -, -, hrecord⟩ := h
  cases hrecord with
  | array => exact ⟨_, _, array_eq _, show Mark.openBracket.byte ≠ _ by decide⟩
  | object => exact ⟨_, _, object_eq _, show Mark.openBrace.byte ≠ _ by decide⟩

theorem readsBelow_record (h : FormReads n form A B C) :
    ReadsBelow n form.read (RecordValue form.names A B C) where
  ok_iff hc := readRecord_ok_iff h hc
  begins h := h.begins

end Records

end ServiceHarness.Document.Json

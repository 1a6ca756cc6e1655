import ServiceHarness.Document.Json.Text
import ServiceHarness.Proofs.Document.Json.Cursor
import ServiceHarness.Proofs.Text.Decoding

/-!
# Reading strings

The reader of strings accepts the contents of strings and nothing else.  One way
it is run on the bytes of a letter; the other way every state tells which bytes
of a letter have been read, so that the letter is known when it is complete.
-/

namespace ServiceHarness.Document.Json

open ServiceHarness.Text

/-! ## Hexadecimal digits -/

private theorem hexValue?_eq_some_iff {byte : UInt8} {n : Nat} :
    hexValue? byte = some n ↔ HexDigit byte n := by
  constructor
  · intro h
    simp only [hexValue?] at h
    split_ifs at h with hdecimal hupper hlower <;> cases h
    · exact .decimal (by omega) (by omega)
    · rw [show byte.toNat - 55 = 10 + (byte.toNat - 65) by omega]
      exact .upper (by omega) (by omega)
    · rw [show byte.toNat - 87 = 10 + (byte.toNat - 97) by omega]
      exact .lower (by omega) (by omega)
  · intro h
    simp only [hexValue?]
    cases h with
    | decimal hn hbyte => rw [if_pos (by omega), show byte.toNat - 48 = n by omega]
    | @upper m hn hbyte =>
        rw [if_neg (by omega), if_pos (by omega), show byte.toNat - 55 = 10 + m by omega]
    | @lower m hn hbyte =>
        rw [if_neg (by omega), if_neg (by omega), if_pos (by omega),
          show byte.toNat - 87 = 10 + m by omega]

private theorem hexNumber?_cons_eq_some_iff {byte : UInt8} {rest : Bytes} {n : Nat} :
    hexNumber? (byte :: rest) = some n ↔
      ∃ high digit, hexNumber? rest = some high ∧ HexDigit byte digit ∧ n = high * 16 + digit := by
  rw [hexNumber?]
  cases hdigit : hexValue? byte with
  | none =>
      have hno : ∀ digit, ¬HexDigit byte digit := by
        intro digit h
        rw [hexValue?_eq_some_iff.mpr h] at hdigit
        cases hdigit
      simp [hno]
  | some digit =>
      have hiff : ∀ d, HexDigit byte d ↔ d = digit := by
        intro d
        rw [← hexValue?_eq_some_iff, hdigit, Option.some.injEq, eq_comm]
      cases hexNumber? rest with
      | none => simp
      | some high => simp [hiff, eq_comm]

theorem hexNumber?_eq_some_iff {a b c d : UInt8} {n : Nat} :
    hexNumber? [d, c, b, a] = some n ↔ CodeUnit [backslash, 0x75, a, b, c, d] n := by
  have hnone : hexNumber? [] = some 0 := rfl
  simp only [hexNumber?_cons_eq_some_iff, hnone, Option.some.injEq]
  constructor
  · rintro ⟨_, z, ⟨_, y, ⟨_, x, ⟨_, w, rfl, hw, rfl⟩, hx, rfl⟩, hy, rfl⟩, hz, rfl⟩
    rw [Nat.zero_mul, Nat.zero_add]
    exact .mk hw hx hy hz
  · intro h
    cases h with
    | mk hw hx hy hz =>
        exact ⟨_, _, ⟨_, _, ⟨_, _, ⟨0, _, rfl, hw, by rw [Nat.zero_mul, Nat.zero_add]⟩, hx, rfl⟩,
          hy, rfl⟩, hz, rfl⟩

theorem CodeUnit.exists_digits {bytes : Bytes} {n : Nat} (h : CodeUnit bytes n) :
    ∃ a b c d, bytes = [backslash, 0x75, a, b, c, d] ∧ hexNumber? [d, c, b, a] = some n := by
  cases h with
  | mk hw hx hy hz => exact ⟨_, _, _, _, rfl, hexNumber?_eq_some_iff.mpr (.mk hw hx hy hz)⟩

private theorem isHighSurrogate_iff {n : Nat} : isHighSurrogate n = true ↔ IsHigh n := by
  simp [isHighSurrogate, IsHigh]
  omega

private theorem isLowSurrogate_iff {n : Nat} : isLowSurrogate n = true ↔ IsLow n := by
  simp [isLowSurrogate, IsLow]
  omega

theorem simpleEscape?_eq_some_iff {byte : UInt8} {c : Char} :
    simpleEscape? byte = some c ↔ (byte, c) ∈ shortEscapes := by
  simp only [simpleEscape?, shortEscapes]
  split_ifs <;> simp [*, eq_comm]

/-! ## Letters are read -/

section Reading

variable {state : TextState} {chars : List Char} {position : Position} {byte : UInt8} {rest : Bytes}

private theorem readTextFrom_next {next : TextState}
    (h : state.step byte (position.after byte) = .next next) :
    readTextFrom state chars position (byte :: rest) =
      readTextFrom next chars (position.after byte) rest := by
  simp only [readTextFrom, h]

private theorem readTextFrom_push {c : Char} (h : state.step byte (position.after byte) = .push c) :
    readTextFrom state chars position (byte :: rest) =
      readTextFrom .plain (c :: chars) (position.after byte) rest := by
  simp only [readTextFrom, h]

private theorem readTextFrom_completes {p : Utf8.Pending} {bytes : Bytes} {c : Char}
    (h : Utf8.Completes p bytes c) (begun : Position) :
    readTextFrom (.inside p begun) chars position (bytes ++ rest) =
      readTextFrom .plain (c :: chars) (bytes.foldl Position.after position) rest := by
  induction h generalizing position with
  | last hlast => exact readTextFrom_push (by simp only [TextState.step, hlast])
  | more hmore _ ih =>
      rw [List.cons_append, readTextFrom_next (by simp only [TextState.step, hmore]; rfl), ih,
        List.foldl_cons]

private theorem readTextFrom_digits {high : Option Nat} {a b c : UInt8} :
    readTextFrom (.hex high []) chars position (a :: b :: c :: rest) =
      readTextFrom (.hex high [c, b, a]) chars ([a, b, c].foldl Position.after position) rest := by
  rw [readTextFrom_next rfl, readTextFrom_next rfl, readTextFrom_next rfl]
  rfl

private theorem ne_of_mem_shortEscapes {byte : UInt8} {c : Char} (h : (byte, c) ∈ shortEscapes) :
    byte ≠ 117 := by
  rintro rfl
  simp [shortEscapes] at h

private theorem step_plain_ascii {c : Char} {after : Position} (hascii : c.toNat < 0x80)
    (hcontrol : 0x20 ≤ c.toNat) (hquote : c ≠ '"') (hbackslash : c ≠ '\\') :
    TextState.plain.step (UInt8.ofNat c.toNat) after = .push c := by
  have hn := Utf8.toNat_ofNat_of_lt (show c.toNat < 256 by omega)
  have hne : ∀ byte : UInt8, c ≠ Char.ofNat byte.toNat → UInt8.ofNat c.toNat ≠ byte := by
    rintro byte hc rfl
    rw [hn, Char.ofNat_toNat] at hc
    exact hc rfl
  have hprintable : ¬UInt8.ofNat c.toNat < 32 := by
    rw [UInt8.lt_iff_toNat_lt, hn]
    exact Nat.not_lt.mpr hcontrol
  rw [TextState.step, plainStep, if_neg (hne 34 hquote), if_neg (hne 92 hbackslash),
    if_neg hprintable, (Utf8.encodeChar_of_lt hascii).2]

private theorem step_plain_lead {lead : UInt8} {p : Utf8.Pending} {after : Position}
    (hlead : 0x80 ≤ lead.toNat) (hstart : Utf8.start lead = .more p) :
    TextState.plain.step lead after = .next (.inside p after) := by
  have hne : ∀ byte : UInt8, byte.toNat < 0x80 → lead ≠ byte := by
    rintro byte hbyte rfl
    omega
  have hprintable : ¬lead < 32 := by
    rw [UInt8.lt_iff_toNat_lt]
    exact Nat.not_lt.mpr (Nat.le_trans (by decide) hlead)
  rw [TextState.step, plainStep, if_neg (hne 34 (by decide)), if_neg (hne 92 (by decide)),
    if_neg hprintable, hstart]

private theorem step_hex_single {a b c d : UInt8} {n : Nat} {after : Position}
    (hnumber : hexNumber? [d, c, b, a] = some n) (hhigh : ¬IsHigh n) (hlow : ¬IsLow n) :
    (TextState.hex none [c, b, a]).step d after = .push (Char.ofNat n) := by
  rw [← isHighSurrogate_iff] at hhigh
  rw [← isLowSurrogate_iff] at hlow
  simp [TextState.step, finishHex, hnumber, hhigh, hlow]

private theorem step_hex_high {a b c d : UInt8} {n : Nat} {after : Position}
    (hnumber : hexNumber? [d, c, b, a] = some n) (hhigh : IsHigh n) :
    (TextState.hex none [c, b, a]).step d after = .next (.afterHigh n) := by
  have hlow : ¬IsLow n := fun h => absurd hhigh.2 (Nat.not_lt.mpr h.1)
  rw [← isHighSurrogate_iff] at hhigh
  rw [← isLowSurrogate_iff] at hlow
  simp [TextState.step, finishHex, hnumber, hhigh, hlow]

private theorem step_hex_low {a b c d : UInt8} {high n : Nat} {after : Position}
    (hnumber : hexNumber? [d, c, b, a] = some n) (hlow : IsLow n) :
    (TextState.hex (some high) [c, b, a]).step d after = .push (joinSurrogates high n) := by
  rw [← isLowSurrogate_iff] at hlow
  simp [TextState.step, finishHex, hnumber, hlow]

theorem readTextFrom_letter {bytes : Bytes} {c : Char} (h : Letter bytes c) :
    readTextFrom .plain chars position (bytes ++ rest) =
      readTextFrom .plain (c :: chars) (bytes.foldl Position.after position) rest := by
  cases h with
  | plain hcontrol hquote hbackslash =>
      by_cases hascii : c.toNat < 0x80
      · obtain ⟨hencode, hstart⟩ := Utf8.encodeChar_of_lt hascii
        rw [hencode]
        exact readTextFrom_push (step_plain_ascii hascii hcontrol hquote hbackslash)
      · obtain ⟨lead, p, later, hencode, hlead, hstart, hcompletes⟩ :=
          Utf8.encodeChar_of_le (Nat.le_of_not_lt hascii)
        rw [hencode, List.cons_append, readTextFrom_next (step_plain_lead hlead hstart),
          readTextFrom_completes hcompletes, List.foldl_cons]
  | @short byte _ hshort =>
      have hpush : ∀ after, TextState.backslash.step byte after = .push c := by
        intro after
        rw [TextState.step, if_neg (ne_of_mem_shortEscapes hshort),
          simpleEscape?_eq_some_iff.mpr hshort]
      rw [List.cons_append, readTextFrom_next rfl]
      exact readTextFrom_push (hpush _)
  | unit hunit hhigh hlow =>
      obtain ⟨_, _, _, _, rfl, hnumber⟩ := hunit.exists_digits
      simp only [List.cons_append, List.nil_append]
      rw [readTextFrom_next rfl, readTextFrom_next rfl, readTextFrom_digits]
      exact readTextFrom_push (step_hex_single hnumber hhigh hlow)
  | pair hfirst hhigh hsecond hlow =>
      obtain ⟨_, _, _, _, rfl, hnumber⟩ := hfirst.exists_digits
      obtain ⟨_, _, _, _, rfl, hnumber'⟩ := hsecond.exists_digits
      simp only [List.cons_append, List.nil_append]
      rw [readTextFrom_next rfl, readTextFrom_next rfl, readTextFrom_digits,
        readTextFrom_next (step_hex_high hnumber hhigh), readTextFrom_next rfl,
        readTextFrom_next rfl, readTextFrom_digits]
      exact readTextFrom_push (step_hex_low hnumber' hlow)

end Reading

/-! ## Only letters are read -/

def Before : Option Nat → Bytes → Prop
  | none, front => front = []
  | some high, front => CodeUnit front high ∧ IsHigh high

/-- The bytes of a letter that have been read when the reader is in a state.  A
broken sequence belongs to no letter, but is not left either. -/
def Begun : TextState → Bytes → Prop
  | .plain, bytes => bytes = []
  | .inside p _, bytes => ∀ rest c, Utf8.Completes p rest c →
      bytes ++ rest = String.utf8EncodeChar c ∧ 0x80 ≤ c.toNat
  | .broken _, _ => True
  | .backslash, bytes => bytes = [backslash]
  | .hex high digits, bytes => digits.length < 4 ∧
      ∃ front, Before high front ∧ bytes = front ++ [backslash, 0x75] ++ digits.reverse
  | .afterHigh high, bytes => Before (some high) bytes
  | .afterHighBackslash high, bytes => ∃ front, Before (some high) front ∧
      bytes = front ++ [backslash]

/-- What a step may lead to when these bytes of a letter are read, the last of
them by the step. -/
inductive Leads (bytes : Bytes) : TextStep → Prop
  | next {state : TextState} : Begun state bytes → Leads bytes (.next state)
  | push {c : Char} : Letter bytes c → Leads bytes (.push c)
  | close : bytes = [quoteMark] → Leads bytes .close
  | fail {reason : Reason} {position : Position} : Leads bytes (.fail reason position)

section Soundness

variable {state : TextState} {bytes : Bytes} {byte : UInt8} {after : Position}

private theorem brokenStep_leads (fault : Position) :
    Leads bytes (brokenStep byte fault after) := by
  simp only [brokenStep]
  split_ifs
  · exact .fail
  · exact .fail
  · exact .next trivial

private theorem plainStep_leads : Leads [byte] (plainStep byte after) := by
  simp only [plainStep]
  split_ifs with hquote hbackslash hcontrol
  · exact .close (by rw [hquote]; rfl)
  · exact .next (by rw [hbackslash]; rfl)
  · exact .fail
  · cases hstart : Utf8.start byte with
    | char c =>
        obtain ⟨hascii, hc⟩ := Utf8.start_eq_char hstart
        have hn : c.toNat = byte.toNat := hc ▸ Utf8.toNat_ofNat_of_valid (.inl (by omega))
        have hencode : String.utf8EncodeChar c = [byte] := by
          rw [(Utf8.encodeChar_of_lt (by omega)).1, hn, UInt8.ofNat_toNat]
        refine .push (hencode ▸ .plain ?_ ?_ ?_)
        · rw [UInt8.lt_iff_toNat_lt] at hcontrol
          rw [hn]
          exact Nat.le_of_not_lt hcontrol
        · rintro rfl
          exact hquote (UInt8.toNat_inj.mp hn.symm)
        · rintro rfl
          exact hbackslash (UInt8.toNat_inj.mp hn.symm)
    | more p =>
        exact .next fun _ _ hcompletes => ⟨Utf8.encodeChar_of_completes hstart hcompletes,
          Utf8.le_toNat_of_completes hstart hcompletes⟩
    | refused => exact .next trivial

private theorem finishHex_leads {high : Option Nat} {front : Bytes} (hfront : Before high front)
    {a b c d : UInt8} :
    Leads (front ++ [backslash, 0x75, a, b, c, d]) (finishHex high [d, c, b, a] after) := by
  cases hnumber : hexNumber? [d, c, b, a] with
  | none =>
      simp only [finishHex, hnumber]
      exact .fail
  | some n =>
      have hunit := hexNumber?_eq_some_iff.mp hnumber
      cases high with
      | none =>
          obtain rfl : front = [] := hfront
          simp only [finishHex, hnumber]
          split_ifs with hlow hhigh
          · exact .fail
          · exact .next ⟨hunit, isHighSurrogate_iff.mp hhigh⟩
          · exact .push (.unit hunit (mt isHighSurrogate_iff.mpr hhigh)
              (mt isLowSurrogate_iff.mpr hlow))
      | some high =>
          obtain ⟨hfirst, hhigh⟩ := hfront
          simp only [finishHex, hnumber]
          split_ifs with hlow
          · exact .push (.pair hfirst hhigh hunit (isLowSurrogate_iff.mp hlow))
          · exact .fail

theorem step_leads (hbegun : Begun state bytes) :
    Leads (bytes ++ [byte]) (state.step byte after) := by
  cases state with
  | plain =>
      obtain rfl : bytes = [] := hbegun
      exact plainStep_leads
  | inside p begun =>
      simp only [TextState.step]
      cases hnext : p.next byte with
      | char c =>
          obtain ⟨hencode, hlow⟩ := hbegun _ c (.last hnext)
          rw [hencode]
          refine .push (.plain (by omega) ?_ ?_)
          · rintro rfl
            revert hlow
            decide
          · rintro rfl
            revert hlow
            decide
      | more q =>
          refine .next fun rest c hcompletes => ?_
          rw [List.append_assoc]
          exact hbegun _ c (.more hnext hcompletes)
      | refused => exact brokenStep_leads begun
  | broken fault => exact brokenStep_leads fault
  | backslash =>
      obtain rfl : bytes = [backslash] := hbegun
      simp only [TextState.step]
      split_ifs with hunit
      · exact .next ⟨by decide, [], rfl, by rw [hunit]; rfl⟩
      · cases hshort : simpleEscape? byte with
        | none => exact .fail
        | some c => exact .push (.short (simpleEscape?_eq_some_iff.mp hshort))
  | hex high digits =>
      obtain ⟨hlength, front, hfront, rfl⟩ := hbegun
      simp only [TextState.step]
      split_ifs with hmore
      · exact .next ⟨Nat.succ_lt_succ hmore, front, hfront, by simp⟩
      · obtain ⟨c, b, a, rfl⟩ : ∃ c b a, digits = [c, b, a] :=
          List.length_eq_three.mp (by omega)
        simpa using finishHex_leads hfront
  | afterHigh high =>
      simp only [TextState.step]
      split_ifs with hbyte
      · exact .next ⟨bytes, hbegun, by rw [hbyte]; rfl⟩
      · exact .fail
  | afterHighBackslash high =>
      obtain ⟨front, hfront, rfl⟩ := hbegun
      simp only [TextState.step]
      split_ifs with hbyte
      · exact .next ⟨by decide, front, hfront, by simp [hbyte]⟩
      · exact .fail

private theorem content_of_readTextFrom {chars out : List Char} {c : Cursor} {rest : Bytes}
    {position : Position} (hbegun : Begun state bytes)
    (h : readTextFrom state chars position rest = .ok (out, c)) :
    ∃ content letters, Content (bytes ++ content) letters ∧ out = chars.reverse ++ letters ∧
      Cursor.Consumes ⟨rest, position⟩ (content ++ [quoteMark]) c := by
  induction rest generalizing state bytes chars position with
  | nil => cases h
  | cons byte rest ih =>
      have hleads : Leads (bytes ++ [byte]) (state.step byte (position.after byte)) :=
        step_leads hbegun
      have hmove : Cursor.Consumes ⟨byte :: rest, position⟩ [byte] ⟨rest, position.after byte⟩ :=
        Cursor.consumes_singleton_iff.mpr ⟨rfl, rfl⟩
      rw [readTextFrom] at h
      generalize state.step byte (position.after byte) = step at h hleads
      cases hleads with
      | next hnext =>
          obtain ⟨content, letters, hcontent, hout, hconsumes⟩ := ih hnext h
          rw [List.append_assoc] at hcontent
          exact ⟨byte :: content, letters, hcontent, hout, hmove.trans hconsumes⟩
      | @push ch hletter =>
          obtain ⟨content, letters, hcontent, hout, hconsumes⟩ := ih (show Begun .plain [] from rfl) h
          refine ⟨byte :: content, ch :: letters, ?_, by simpa using hout, hmove.trans hconsumes⟩
          simpa using Content.cons hletter hcontent
      | close hclose =>
          obtain ⟨rfl, rfl⟩ : bytes = [] ∧ byte = quoteMark := by
            simpa [List.append_eq_cons_iff] using hclose
          cases h
          exact ⟨[], [], .nil, by rw [List.append_nil], hmove⟩
      | fail => cases h

end Soundness

private theorem readTextFrom_content {content : Bytes} {letters : List Char}
    (h : Content content letters) (chars : List Char) (position : Position) (rest : Bytes) :
    readTextFrom .plain chars position (content ++ quoteMark :: rest) =
      .ok (chars.reverse ++ letters,
        ⟨rest, (content ++ [quoteMark]).foldl Position.after position⟩) := by
  induction h generalizing chars position with
  | nil =>
      rw [List.append_nil]
      rfl
  | cons hletter _ ih =>
      rw [List.append_assoc, readTextFrom_letter hletter, ih]
      simp

/-- A string is read exactly where the content of one stands in front of a quote. -/
theorem readText_ok_iff {c c' : Cursor} {chars : List Char} :
    c.readText = .ok (chars, c') ↔
      ∃ content, Content content chars ∧ c.Consumes (content ++ [quoteMark]) c' := by
  constructor
  · intro h
    obtain ⟨content, letters, hcontent, hout, hconsumes⟩ :=
      content_of_readTextFrom (show Begun .plain [] from rfl) h
    obtain rfl : chars = letters := hout
    exact ⟨content, hcontent, hconsumes⟩
  · rintro ⟨content, hcontent, hrest, hposition⟩
    rw [Cursor.readText, hrest, List.append_assoc, List.singleton_append,
      readTextFrom_content hcontent, ← hposition]
    rfl

end ServiceHarness.Document.Json

import Mathlib.Data.Nat.Basic
import ServiceHarness.Text.Utf8

/-!
# Reading back encoded text

`decode` undoes `encode` on every list of characters, so that a text is
determined by its bytes.
-/

namespace ServiceHarness.Text.Utf8

theorem toNat_ofNat_of_lt {n : Nat} (h : n < 256) : (UInt8.ofNat n).toNat = n := by
  rw [UInt8.toNat_ofNat']
  omega

/-! ## Single bytes -/

private theorem start_ascii {n : Nat} (h : n < 0x80) :
    start (UInt8.ofNat n) = .char (Char.ofNat n) := by
  simp [start, toNat_ofNat_of_lt (show n < 256 by omega), h]

private theorem start_two {d : Nat} (hlow : 2 ≤ d) (hhigh : d < 32) :
    start (UInt8.ofNat (d + 0xC0)) = .more ⟨0, 0x80, 0xBF, d, 1⟩ := by
  have hn := toNat_ofNat_of_lt (show d + 0xC0 < 256 by omega)
  simp only [start, hn]
  rw [if_neg (by omega), if_neg (by omega), if_pos (by omega), Nat.add_sub_cancel]

private theorem start_three {d : Nat} (h : d < 16) :
    start (UInt8.ofNat (d + 0xE0)) =
      .more ⟨1, if d = 0 then 0xA0 else 0x80, if d = 0xD then 0x9F else 0xBF, d, 1⟩ := by
  have hn := toNat_ofNat_of_lt (show d + 0xE0 < 256 by omega)
  simp only [start, hn]
  rw [if_neg (by omega), if_neg (by omega), if_neg (by omega)]
  by_cases hzero : d = 0
  · subst d
    rfl
  · rw [if_neg (by omega), if_neg hzero]
    by_cases hsurrogate : d = 0xD
    · subst d
      rfl
    · rw [if_neg (by omega), if_neg hsurrogate, if_pos (by omega), Nat.add_sub_cancel]

private theorem start_four {d : Nat} (h : d ≤ 4) :
    start (UInt8.ofNat (d + 0xF0)) =
      .more ⟨2, if d = 0 then 0x90 else 0x80, if d = 4 then 0x8F else 0xBF, d, 1⟩ := by
  have hcases : d = 0 ∨ d = 1 ∨ d = 2 ∨ d = 3 ∨ d = 4 := by omega
  rcases hcases with rfl | rfl | rfl | rfl | rfl <;> rfl

private theorem next_last {low high code size d : Nat} (hlow : low ≤ d + 0x80)
    (hhigh : d + 0x80 ≤ high) (hbyte : d < 64) :
    Pending.next ⟨0, low, high, code, size⟩ (UInt8.ofNat (d + 0x80)) =
      .char (Char.ofNat (code * 64 + d)) := by
  have hn := toNat_ofNat_of_lt (show d + 0x80 < 256 by omega)
  simp only [Pending.next, hn]
  rw [if_pos ⟨hlow, hhigh⟩, Nat.add_sub_cancel]

private theorem next_owed {owed low high code size d : Nat} (hlow : low ≤ d + 0x80)
    (hhigh : d + 0x80 ≤ high) (hbyte : d < 64) :
    Pending.next ⟨owed + 1, low, high, code, size⟩ (UInt8.ofNat (d + 0x80)) =
      .more ⟨owed, 0x80, 0xBF, code * 64 + d, size + 1⟩ := by
  have hn := toNat_ofNat_of_lt (show d + 0x80 < 256 by omega)
  simp only [Pending.next, hn]
  rw [if_pos ⟨hlow, hhigh⟩, Nat.add_sub_cancel]

/-! ## Characters and texts -/

private theorem toNat_valid (c : Char) : c.toNat < 0xD800 ∨ 0xDFFF < c.toNat ∧ c.toNat < 0x110000 :=
  c.valid

theorem encodeChar_eq (c : Char) :
    String.utf8EncodeChar c =
      if c.toNat ≤ 0x7f then [UInt8.ofNat c.toNat]
      else if c.toNat ≤ 0x7ff then
        [UInt8.ofNat (c.toNat / 64 % 0x20 + 0xc0), UInt8.ofNat (c.toNat % 0x40 + 0x80)]
      else if c.toNat ≤ 0xffff then
        [UInt8.ofNat (c.toNat / 4096 % 0x10 + 0xe0), UInt8.ofNat (c.toNat / 64 % 0x40 + 0x80),
          UInt8.ofNat (c.toNat % 0x40 + 0x80)]
      else
        [UInt8.ofNat (c.toNat / 262144 % 0x08 + 0xf0), UInt8.ofNat (c.toNat / 4096 % 0x40 + 0x80),
          UInt8.ofNat (c.toNat / 64 % 0x40 + 0x80), UInt8.ofNat (c.toNat % 0x40 + 0x80)] :=
  rfl

/-- The bytes that finish a character that has begun. -/
inductive Completes : Pending → Bytes → Char → Prop
  | last {p : Pending} {byte : UInt8} {c : Char} : p.next byte = .char c → Completes p [byte] c
  | more {p q : Pending} {byte : UInt8} {rest : Bytes} {c : Char} :
      p.next byte = .more q → Completes q rest c → Completes p (byte :: rest) c

theorem encodeChar_of_lt {c : Char} (h : c.toNat < 0x80) :
    String.utf8EncodeChar c = [UInt8.ofNat c.toNat] ∧ start (UInt8.ofNat c.toNat) = .char c := by
  rw [encodeChar_eq, if_pos (by omega), start_ascii h, Char.ofNat_toNat]
  exact ⟨rfl, rfl⟩

theorem encodeChar_of_le {c : Char} (h : 0x80 ≤ c.toNat) :
    ∃ lead p rest, String.utf8EncodeChar c = lead :: rest ∧ 0x80 ≤ lead.toNat ∧
      start lead = .more p ∧ Completes p rest c := by
  have hvalid := toNat_valid c
  have hchar : Char.ofNat c.toNat = c := Char.ofNat_toNat c
  rw [encodeChar_eq, if_neg (by omega)]
  generalize c.toNat = v at h hvalid hchar
  by_cases htwo : v ≤ 0x7ff
  · have hcode : v / 64 % 32 * 64 + v % 64 = v := by omega
    rw [if_pos htwo]
    refine ⟨_, _, _, rfl, ?_, start_two (by omega) (by omega), .last ?_⟩
    · rw [toNat_ofNat_of_lt (by omega)]
      omega
    · rw [next_last (by omega) (by omega) (by omega), hcode, hchar]
  rw [if_neg htwo]
  by_cases hthree : v ≤ 0xffff
  · have hcode : (v / 4096 % 16 * 64 + v / 64 % 64) * 64 + v % 64 = v := by omega
    rw [if_pos hthree]
    have hsecond : v / 64 % 64 < 64 := by omega
    refine ⟨_, _, _, rfl, ?_, start_three (by omega),
      .more (next_owed ?_ ?_ hsecond) (.last ?_)⟩
    · rw [toNat_ofNat_of_lt (by omega)]
      omega
    · split <;> omega
    · split <;> omega
    · rw [next_last (by omega) (by omega) (by omega), hcode, hchar]
  · have hcode :
        ((v / 262144 % 8 * 64 + v / 4096 % 64) * 64 + v / 64 % 64) * 64 + v % 64 = v := by
      omega
    rw [if_neg hthree]
    have hsecond : v / 4096 % 64 < 64 := by omega
    have hthird : v / 64 % 64 < 64 := by omega
    refine ⟨_, _, _, rfl, ?_, start_four (by omega),
      .more (next_owed ?_ ?_ hsecond) (.more (next_owed (by omega) (by omega) hthird) (.last ?_))⟩
    · rw [toNat_ofNat_of_lt (by omega)]
      omega
    · split <;> omega
    · split <;> omega
    · rw [next_last (by omega) (by omega) (by omega), hcode, hchar]

private theorem decodeFrom_completes {p : Pending} {bytes : Bytes} {c : Char}
    (h : Completes p bytes c) (index : Nat) (done : List Char) (rest : Bytes) :
    ∃ next, decodeFrom (some p) index done (bytes ++ rest) =
      decodeFrom none next (c :: done) rest := by
  induction h generalizing index with
  | last hlast =>
      refine ⟨index + 1, ?_⟩
      simp only [List.cons_append, List.nil_append, decodeFrom, hlast]
  | more hmore hrest ih =>
      obtain ⟨next, hnext⟩ := ih (index + 1)
      refine ⟨next, ?_⟩
      simp only [List.cons_append, decodeFrom, hmore]
      exact hnext

private theorem decodeFrom_encodeChar (c : Char) (index : Nat) (done : List Char) (rest : Bytes) :
    ∃ next, decodeFrom none index done (String.utf8EncodeChar c ++ rest) =
      decodeFrom none next (c :: done) rest := by
  by_cases hascii : c.toNat < 0x80
  · obtain ⟨hencode, hstart⟩ := encodeChar_of_lt hascii
    refine ⟨index + 1, ?_⟩
    rw [hencode]
    simp only [List.cons_append, List.nil_append, decodeFrom, hstart]
  · obtain ⟨lead, p, bytes, hencode, -, hstart, hcompletes⟩ :=
      encodeChar_of_le (Nat.le_of_not_lt hascii)
    obtain ⟨next, hnext⟩ := decodeFrom_completes hcompletes (index + 1) done rest
    refine ⟨next, ?_⟩
    rw [hencode]
    simp only [List.cons_append, decodeFrom, hstart]
    exact hnext

theorem decodeFrom_encode (chars : List Char) (index : Nat) (done : List Char) :
    decodeFrom none index done (encode chars) = .ok (done.reverse ++ chars) := by
  induction chars generalizing index done with
  | nil => simp [encode, decodeFrom]
  | cons c chars ih =>
      obtain ⟨next, hnext⟩ := decodeFrom_encodeChar c index done (encode chars)
      rw [encode] at hnext ⊢
      rw [List.flatMap_cons, hnext]
      simpa [encode] using ih next (c :: done)

theorem decode_encode (chars : List Char) : decode (encode chars) = .ok chars := by
  rw [decode, decodeFrom_encode, List.reverse_nil, List.nil_append]

theorem encode_append (chars others : List Char) :
    encode (chars ++ others) = encode chars ++ encode others :=
  List.flatMap_append

theorem ofString_append (s t : String) : ofString (s ++ t) = ofString s ++ ofString t := by
  rw [ofString, String.toList_append, encode_append]
  rfl

theorem encode_of_ascii {chars : List Char} (h : ∀ c ∈ chars, c.toNat < 0x80) :
    encode chars = chars.map fun c => UInt8.ofNat c.toNat := by
  induction chars with
  | nil => rfl
  | cons c chars ih =>
      obtain ⟨hc, hlater⟩ := List.forall_mem_cons.mp h
      rw [encode, List.flatMap_cons, (encodeChar_of_lt hc).1, ← encode, ih hlater]
      rfl

theorem toString?_ofString (s : String) : toString? (ofString s) = some s := by
  rw [toString?, ofString, decode_encode]
  exact congrArg some String.ofList_toList

end ServiceHarness.Text.Utf8

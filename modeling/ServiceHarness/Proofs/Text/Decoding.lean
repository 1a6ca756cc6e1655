import Mathlib.Tactic.SplitIfs
import ServiceHarness.Proofs.Text.Encoding

/-!
# Reading only encoded text

What the reader of bytes takes for a character is the encoding of that
character: overlong forms, surrogates and values out of range are no characters.
-/

namespace ServiceHarness.Text.Utf8

/-! ## What a step reads -/

private theorem start_of_lt {byte : UInt8} (h : byte.toNat < 0x80) :
    start byte = .char (Char.ofNat byte.toNat) := by
  rw [start]
  exact if_pos h

private theorem start_eq_more {byte : UInt8} {p : Pending} (h : start byte = .more p) :
    0x80 ≤ p.low ∧ p.high ≤ 0xBF ∧
    (p.owed = 0 ∧ p.code + 0xC0 = byte.toNat ∧ 2 ≤ p.code ∧ p.code < 0x20 ∨
     p.owed = 1 ∧ p.code + 0xE0 = byte.toNat ∧ p.code < 0x10 ∧
      (p.code = 0 → p.low = 0xA0) ∧ (p.code = 0xD → p.high = 0x9F) ∨
     p.owed = 2 ∧ p.code + 0xF0 = byte.toNat ∧ p.code ≤ 4 ∧
      (p.code = 0 → p.low = 0x90) ∧ (p.code = 4 → p.high = 0x8F)) := by
  simp only [start] at h
  generalize byte.toNat = n at h ⊢
  split_ifs at h <;> cases h <;> dsimp only <;> omega

theorem start_eq_char {byte : UInt8} {c : Char} (h : start byte = .char c) :
    byte.toNat < 0x80 ∧ c = Char.ofNat byte.toNat := by
  by_cases hascii : byte.toNat < 0x80
  · rw [start_of_lt hascii] at h
    exact ⟨hascii, (Step.char.inj h).symm⟩
  · simp only [start, if_neg hascii] at h
    generalize byte.toNat = n at h
    split_ifs at h

theorem next_eq_char {p : Pending} {byte : UInt8} {c : Char} (h : p.next byte = .char c) :
    p.owed = 0 ∧ p.low ≤ byte.toNat ∧ byte.toNat ≤ p.high ∧
      c = Char.ofNat (p.code * 64 + (byte.toNat - 0x80)) := by
  obtain ⟨owed, low, high, code, size⟩ := p
  simp only [Pending.next] at h
  by_cases hrange : low ≤ byte.toNat ∧ byte.toNat ≤ high
  · rw [if_pos hrange] at h
    cases owed with
    | zero => exact ⟨rfl, hrange.1, hrange.2, (Step.char.inj h).symm⟩
    | succ owed => cases h
  · rw [if_neg hrange] at h
    cases h

theorem next_eq_more {p q : Pending} {byte : UInt8} (h : p.next byte = .more q) :
    p.low ≤ byte.toNat ∧ byte.toNat ≤ p.high ∧ p.owed = q.owed + 1 ∧ q.low = 0x80 ∧
      q.high = 0xBF ∧ q.code = p.code * 64 + (byte.toNat - 0x80) := by
  obtain ⟨owed, low, high, code, size⟩ := p
  simp only [Pending.next] at h
  by_cases hrange : low ≤ byte.toNat ∧ byte.toNat ≤ high
  · rw [if_pos hrange] at h
    cases owed with
    | zero => cases h
    | succ owed =>
        cases h
        exact ⟨hrange.1, hrange.2, rfl, rfl, rfl, rfl⟩
  · rw [if_neg hrange] at h
    cases h

/-! ## Characters -/

theorem toNat_ofNat_of_valid {n : Nat} (h : n < 0xD800 ∨ 0xDFFF < n ∧ n < 0x110000) :
    (Char.ofNat n).toNat = n := by
  have hvalid : n.isValidChar := h
  rw [Char.ofNat, dif_pos hvalid]
  rfl

private theorem ofNat_eq_byte {n : Nat} {byte : UInt8} (h : n = byte.toNat) :
    UInt8.ofNat n = byte := by
  rw [h, UInt8.ofNat_toNat]

private theorem ofNat_bits {byte : UInt8} (h : 0x80 ≤ byte.toNat) :
    UInt8.ofNat (byte.toNat - 0x80 + 0x80) = byte :=
  ofNat_eq_byte (Nat.sub_add_cancel h)

private theorem Completes.owed_zero {p : Pending} {bytes : Bytes} {c : Char}
    (h : Completes p bytes c) (howed : p.owed = 0) :
    ∃ byte, bytes = [byte] ∧ p.low ≤ byte.toNat ∧ byte.toNat ≤ p.high ∧
      c = Char.ofNat (p.code * 64 + (byte.toNat - 0x80)) := by
  cases h with
  | last hlast => exact ⟨_, rfl, (next_eq_char hlast).2⟩
  | more hmore _ =>
      have := (next_eq_more hmore).2.2.1
      omega

private theorem Completes.owed_succ {p : Pending} {bytes : Bytes} {c : Char}
    (h : Completes p bytes c) {owed : Nat} (howed : p.owed = owed + 1) :
    ∃ byte q rest, bytes = byte :: rest ∧ p.low ≤ byte.toNat ∧ byte.toNat ≤ p.high ∧
      Completes q rest c ∧ q.owed = owed ∧ q.low = 0x80 ∧ q.high = 0xBF ∧
      q.code = p.code * 64 + (byte.toNat - 0x80) := by
  cases h with
  | last hlast =>
      have := (next_eq_char hlast).1
      omega
  | @more _ q byte rest _ hmore hrest =>
      obtain ⟨hlow, hhigh, howed', hrange⟩ := next_eq_more hmore
      exact ⟨byte, q, rest, rfl, hlow, hhigh, hrest, by omega, hrange⟩

private theorem encodeChar_two {n a b : Nat} (hcode : n = a * 64 + b) (ha : 2 ≤ a) (ha' : a < 0x20)
    (hb : b < 64) :
    String.utf8EncodeChar (Char.ofNat n) = [UInt8.ofNat (a + 0xC0), UInt8.ofNat (b + 0x80)] := by
  have hn := toNat_ofNat_of_valid (n := n) (by omega)
  rw [encodeChar_eq, hn, if_neg (by omega), if_pos (by omega), show n / 64 % 0x20 = a by omega,
    show n % 0x40 = b by omega]

private theorem encodeChar_three {n a b c : Nat} (hcode : n = (a * 64 + b) * 64 + c) (ha : a < 0x10)
    (hb : b < 64) (hc : c < 64) (hlong : a = 0 → 0x20 ≤ b) (hsurrogate : a = 0xD → b < 0x20) :
    String.utf8EncodeChar (Char.ofNat n) =
      [UInt8.ofNat (a + 0xE0), UInt8.ofNat (b + 0x80), UInt8.ofNat (c + 0x80)] := by
  have hn := toNat_ofNat_of_valid (n := n) (by omega)
  rw [encodeChar_eq, hn, if_neg (by omega), if_neg (by omega), if_pos (by omega),
    show n / 4096 % 0x10 = a by omega, show n / 64 % 0x40 = b by omega,
    show n % 0x40 = c by omega]

private theorem encodeChar_four {n a b c d : Nat} (hcode : n = ((a * 64 + b) * 64 + c) * 64 + d)
    (ha : a ≤ 4) (hb : b < 64) (hc : c < 64) (hd : d < 64) (hlong : a = 0 → 0x10 ≤ b)
    (hrange : a = 4 → b < 0x10) :
    String.utf8EncodeChar (Char.ofNat n) =
      [UInt8.ofNat (a + 0xF0), UInt8.ofNat (b + 0x80), UInt8.ofNat (c + 0x80),
        UInt8.ofNat (d + 0x80)] := by
  have hn := toNat_ofNat_of_valid (n := n) (by omega)
  rw [encodeChar_eq, hn, if_neg (by omega), if_neg (by omega), if_neg (by omega),
    show n / 262144 % 0x08 = a by omega, show n / 4096 % 0x40 = b by omega,
    show n / 64 % 0x40 = c by omega, show n % 0x40 = d by omega]

theorem encodeChar_of_completes {lead : UInt8} {p : Pending} {bytes : Bytes} {c : Char}
    (hstart : start lead = .more p) (h : Completes p bytes c) :
    lead :: bytes = String.utf8EncodeChar c := by
  obtain ⟨hlow, hhigh, ⟨howed, hlead, hcode⟩ | ⟨howed, hlead, hcode⟩ | ⟨howed, hlead, hcode⟩⟩ :=
    start_eq_more hstart
  · obtain ⟨b, rfl, hb, hb', hc⟩ := h.owed_zero howed
    rw [hc, encodeChar_two rfl (by omega) (by omega) (by omega), ofNat_eq_byte hlead,
      ofNat_bits (by omega)]
  · obtain ⟨a, q, rest, rfl, ha, ha', hrest, howed, hqlow, hqhigh, hqcode⟩ := h.owed_succ howed
    obtain ⟨b, rfl, hb, hb', hc⟩ := hrest.owed_zero howed
    rw [hc, hqcode, encodeChar_three rfl (by omega) (by omega) (by omega) (by omega) (by omega),
      ofNat_eq_byte hlead, ofNat_bits (by omega), ofNat_bits (by omega)]
  · obtain ⟨a, q, rest, rfl, ha, ha', hrest, howed, hqlow, hqhigh, hqcode⟩ := h.owed_succ howed
    obtain ⟨b, r, rest, rfl, hb, hb', hlast, howed, hrlow, hrhigh, hrcode⟩ := hrest.owed_succ howed
    obtain ⟨d, rfl, hd, hd', hc⟩ := hlast.owed_zero howed
    rw [hc, hrcode, hqcode, encodeChar_four rfl (by omega) (by omega) (by omega) (by omega)
      (by omega) (by omega), ofNat_eq_byte hlead, ofNat_bits (by omega),
      ofNat_bits (by omega), ofNat_bits (by omega)]

theorem le_toNat_of_completes {lead : UInt8} {p : Pending} {bytes : Bytes} {c : Char}
    (hstart : start lead = .more p) (h : Completes p bytes c) : 0x80 ≤ c.toNat := by
  by_contra hascii
  obtain ⟨hencode, hchar⟩ := encodeChar_of_lt (Nat.lt_of_not_le hascii)
  have hlead := encodeChar_of_completes hstart h
  rw [hencode, List.cons.injEq] at hlead
  rw [← hlead.1, hstart] at hchar
  cases hchar

/-! ## Whole texts -/

/-- The bytes of a character that has begun, if one has. -/
def Opened : Option Pending → Bytes → Prop
  | none, front => front = []
  | some p, front => ∀ rest c, Completes p rest c → front ++ rest = String.utf8EncodeChar c

private theorem encode_cons (c : Char) (chars : List Char) :
    encode (c :: chars) = String.utf8EncodeChar c ++ encode chars :=
  List.flatMap_cons

theorem encodeChar_of_start {byte : UInt8} {c : Char} (h : start byte = .char c) :
    String.utf8EncodeChar c = [byte] := by
  obtain ⟨hascii, rfl⟩ := start_eq_char h
  have hn : (Char.ofNat byte.toNat).toNat = byte.toNat := toNat_ofNat_of_valid (by omega)
  rw [(encodeChar_of_lt (hn.symm ▸ hascii)).1, ofNat_eq_byte hn]

private theorem eq_encode_of_decodeFrom {pending : Option Pending} {front : Bytes}
    (hopened : Opened pending front) {index : Nat} {done chars : List Char} {bytes : Bytes}
    (h : decodeFrom pending index done bytes = .ok chars) :
    ∃ letters, chars = done.reverse ++ letters ∧ front ++ bytes = encode letters := by
  induction bytes generalizing pending front index done with
  | nil =>
      cases pending with
      | none =>
          cases h
          exact ⟨[], (List.append_nil _).symm, by rw [List.append_nil]; exact hopened⟩
      | some p => cases h
  | cons byte bytes ih =>
      have hfinish : ∀ {c : Char}, front ++ [byte] = String.utf8EncodeChar c →
          decodeFrom none (index + 1) (c :: done) bytes = .ok chars →
          ∃ letters, chars = done.reverse ++ letters ∧ front ++ byte :: bytes = encode letters := by
        intro c hc hrest
        obtain ⟨letters, hchars, hbytes⟩ := ih (show Opened none [] from rfl) hrest
        refine ⟨c :: letters, by simpa using hchars, ?_⟩
        rw [encode_cons, ← hc, ← hbytes, List.append_assoc]
        rfl
      have hmore : ∀ {q : Pending}, Opened (some q) (front ++ [byte]) →
          decodeFrom (some q) (index + 1) done bytes = .ok chars →
          ∃ letters, chars = done.reverse ++ letters ∧ front ++ byte :: bytes = encode letters := by
        intro q hq hrest
        obtain ⟨letters, hchars, hbytes⟩ := ih hq hrest
        exact ⟨letters, hchars, by rw [← hbytes, List.append_assoc]; rfl⟩
      cases pending with
      | none =>
          obtain rfl : front = [] := hopened
          simp only [decodeFrom] at h
          cases hstart : start byte with
          | char c =>
              rw [hstart] at h
              exact hfinish (encodeChar_of_start hstart).symm h
          | more q =>
              rw [hstart] at h
              exact hmore (fun rest c hrest => encodeChar_of_completes hstart hrest) h
          | refused =>
              rw [hstart] at h
              cases h
      | some p =>
          simp only [decodeFrom] at h
          cases hnext : p.next byte with
          | char c =>
              rw [hnext] at h
              exact hfinish (hopened [byte] c (.last hnext)) h
          | more q =>
              rw [hnext] at h
              refine hmore (fun rest c hrest => ?_) h
              rw [List.append_assoc]
              exact hopened (byte :: rest) c (.more hnext hrest)
          | refused =>
              rw [hnext] at h
              cases h

theorem decode_eq_ok_iff {bytes : Bytes} {chars : List Char} :
    decode bytes = .ok chars ↔ bytes = encode chars := by
  constructor
  · intro h
    obtain ⟨letters, rfl, hbytes⟩ := eq_encode_of_decodeFrom (show Opened none [] from rfl) h
    exact hbytes
  · rintro rfl
    exact decode_encode chars

theorem toString?_eq_some_iff {bytes : Bytes} {s : String} :
    toString? bytes = some s ↔ bytes = ofString s := by
  constructor
  · intro h
    rw [toString?] at h
    cases hdecode : decode bytes with
    | ok chars =>
        rw [hdecode] at h
        cases h
        rw [ofString, String.toList_ofList]
        exact decode_eq_ok_iff.mp hdecode
    | error fault =>
        rw [hdecode] at h
        cases h
  · rintro rfl
    exact toString?_ofString s

theorem ofString_inj {s t : String} : ofString s = ofString t ↔ s = t := by
  constructor
  · intro h
    have hs := toString?_ofString s
    rw [h, toString?_ofString] at hs
    exact (Option.some.inj hs).symm
  · rintro rfl
    rfl

/-! ## Faulty texts -/

/-- Only characters beyond ASCII can finish what has begun. -/
def Wide (pending : Option Pending) : Prop :=
  ∀ p ∈ pending, ∀ rest c, Completes p rest c → 0x80 ≤ c.toNat

private theorem wide_none : Wide none := by
  rintro p ⟨⟩

private theorem wide_of_next {p q : Pending} {byte : UInt8} (hp : Wide (some p))
    (h : p.next byte = .more q) : Wide (some q) := by
  rintro q ⟨⟩ rest c hrest
  exact hp p rfl (byte :: rest) c (.more h hrest)

private theorem wide_lossyStart (byte : UInt8) (done : List Char) :
    Wide (lossyStart byte done).1 := by
  rw [lossyStart]
  cases hstart : start byte with
  | char c => exact wide_none
  | more p =>
      rintro p ⟨⟩ rest c hrest
      exact le_toNat_of_completes hstart hrest
  | refused => exact wide_none

private theorem mem_lossyStart {byte : UInt8} {done : List Char} {c : Char}
    (hascii : c.toNat < 0x80)
    (h : c ∈ (lossyStart byte done).2) : c ∈ done ∨ UInt8.ofNat c.toNat = byte := by
  rw [lossyStart] at h
  cases hstart : start byte with
  | char d =>
      rw [hstart] at h
      rcases List.mem_cons.mp h with rfl | hdone
      · have hbyte := (encodeChar_of_lt hascii).1.symm.trans (encodeChar_of_start hstart)
        exact .inr (List.singleton_inj.mp hbyte)
      · exact .inl hdone
  | more p =>
      rw [hstart] at h
      exact .inl h
  | refused =>
      rw [hstart] at h
      rcases List.mem_cons.mp h with rfl | hdone
      · exact absurd hascii (by decide)
      · exact .inl hdone

theorem mem_lossyFrom {pending : Option Pending} (hwide : Wide pending) {done : List Char}
    {bytes : Bytes} {c : Char} (hascii : c.toNat < 0x80)
    (h : c ∈ lossyFrom pending done bytes) : c ∈ done ∨ UInt8.ofNat c.toNat ∈ bytes := by
  have hput : ∀ {d : Char} {done : List Char}, 0x80 ≤ d.toNat → c ∈ d :: done → c ∈ done := by
    intro d done hd hmem
    rcases List.mem_cons.mp hmem with rfl | hdone
    · omega
    · exact hdone
  induction bytes generalizing pending done with
  | nil =>
      left
      cases pending with
      | none => exact List.mem_reverse.mp h
      | some p => exact hput (by decide) (List.mem_reverse.mp h)
  | cons byte bytes ih =>
      have hrest : ∀ {pending' : Option Pending} {done' : List Char}, Wide pending' →
          c ∈ lossyFrom pending' done' bytes →
          (c ∈ done' → c ∈ done ∨ UInt8.ofNat c.toNat = byte) →
          c ∈ done ∨ UInt8.ofNat c.toNat ∈ byte :: bytes := by
        intro pending' done' hwide' hmem hdone
        rcases ih hwide' hmem with hmem | hmem
        · rcases hdone hmem with hmem | hbyte
          · exact .inl hmem
          · exact .inr (hbyte ▸ List.mem_cons_self)
        · exact .inr (List.mem_cons_of_mem byte hmem)
      cases pending with
      | none => exact hrest (wide_lossyStart byte done) h (mem_lossyStart hascii)
      | some p =>
          simp only [lossyFrom] at h
          cases hnext : p.next byte with
          | char d =>
              rw [hnext] at h
              have hd := hwide p rfl [byte] d (.last hnext)
              exact hrest wide_none h fun hmem => .inl (hput hd hmem)
          | more q =>
              rw [hnext] at h
              exact hrest (wide_of_next hwide hnext) h .inl
          | refused =>
              rw [hnext] at h
              refine hrest (wide_lossyStart byte _) h fun hmem => ?_
              exact (mem_lossyStart hascii hmem).imp_left (hput (by decide))

theorem mem_bytes_of_mem_lossy {bytes : Bytes} {c : Char} (hascii : c.toNat < 0x80)
    (h : c ∈ (lossy bytes).toList) : UInt8.ofNat c.toNat ∈ bytes := by
  rw [lossy, String.toList_ofList] at h
  exact (mem_lossyFrom wide_none hascii h).resolve_left List.not_mem_nil

end ServiceHarness.Text.Utf8

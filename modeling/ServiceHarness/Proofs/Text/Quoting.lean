import Mathlib.Tactic.SplitIfs
import ServiceHarness.Text.Quoted

/-!
# Escapes of quoted text

The three ways in which a character is written between quotes.  Each grammar
of strings that quoted text has to obey is checked against these alone.
-/

namespace ServiceHarness.Text.Quoted

def shortEscapes : List (Char × Char) :=
  [('"', '"'), ('\\', '\\'), ('b', '\x08'), ('f', '\x0c'), ('n', '\n'), ('r', '\r'), ('t', '\t')]

inductive Escaped : Char → List Char → Prop
  | plain {c : Char} : 0x20 ≤ c.toNat → c ≠ '"' → c ≠ '\\' → Escaped c [c]
  | short {mark c : Char} : (mark, c) ∈ shortEscapes → Escaped c ['\\', mark]
  | control {c : Char} : c.toNat < 0x20 →
      Escaped c ['\\', 'u', '0', '0', hexDigit (c.toNat / 16), hexDigit (c.toNat % 16)]

theorem escaped_escape (c : Char) : Escaped c (escape c) := by
  rw [escape]
  split_ifs with hquote hslash hbackspace hfeed hnewline hreturn htab hcontrol
  · exact .short (by simp [shortEscapes, hquote])
  · exact .short (by simp [shortEscapes, hslash])
  · exact .short (by simp [shortEscapes, hbackspace])
  · exact .short (by simp [shortEscapes, hfeed])
  · exact .short (by simp [shortEscapes, hnewline])
  · exact .short (by simp [shortEscapes, hreturn])
  · exact .short (by simp [shortEscapes, htab])
  · exact .control hcontrol
  · exact .plain (Nat.le_of_not_lt hcontrol) hquote hslash

theorem toNat_hexDigit_of_lt {n : Nat} (h : n < 10) : (hexDigit n).toNat = 0x30 + n := by
  revert n
  decide

theorem toNat_hexDigit_of_le {n : Nat} (h : n < 6) : (hexDigit (10 + n)).toNat = 0x61 + n := by
  revert n
  decide

theorem toNat_hexDigit_ascii {n : Nat} (h : n < 16) : (hexDigit n).toNat < 0x80 := by
  revert n
  decide

end ServiceHarness.Text.Quoted

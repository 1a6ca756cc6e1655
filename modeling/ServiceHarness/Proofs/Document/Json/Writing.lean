import ServiceHarness.Document.Json.Writer
import ServiceHarness.Proofs.Document.Json.Grammar
import ServiceHarness.Proofs.Text.Encoding
import ServiceHarness.Proofs.Text.Quoting

/-!
# What is written is in the language

The text that is written for a service is a document that describes it.
-/

namespace ServiceHarness.Document.Json

open ServiceHarness.Text

/-! ## Strings -/

theorem hexDigit_written {n : Nat} (h : n < 16) :
    HexDigit (UInt8.ofNat (Quoted.hexDigit n).toNat) n := by
  by_cases hten : n < 10
  · have hdigit := Quoted.toNat_hexDigit_of_lt hten
    refine .decimal hten ?_
    rw [hdigit, Utf8.toNat_ofNat_of_lt (by omega)]
  · obtain ⟨k, rfl⟩ := Nat.exists_eq_add_of_le (Nat.le_of_not_lt hten)
    have hdigit := Quoted.toNat_hexDigit_of_le (n := k) (by omega)
    refine .lower (by omega) ?_
    rw [hdigit, Utf8.toNat_ofNat_of_lt (by omega)]

theorem shortEscapes_written :
    ∀ p ∈ Quoted.shortEscapes,
      p.1.toNat < 0x80 ∧ (UInt8.ofNat p.1.toNat, p.2) ∈ shortEscapes := by
  simp [Quoted.shortEscapes, shortEscapes]

private theorem letter_of_escaped {c : Char} {written : List Char} (h : Quoted.Escaped c written) :
    Letter (Utf8.encode written) c := by
  cases h with
  | plain hlow hquote hslash =>
      have hencode : Utf8.encode [c] = String.utf8EncodeChar c := List.flatMap_singleton _ _
      rw [hencode]
      exact .plain hlow hquote hslash
  | @short mark _ hshort =>
      obtain ⟨hmark, hmem⟩ := shortEscapes_written _ hshort
      rw [Utf8.encode_of_ascii (by simp [hmark])]
      exact .short hmem
  | control hcontrol =>
      have hhigh : c.toNat / 16 < 16 := by omega
      have hlow : c.toNat % 16 < 16 := by omega
      have hzero : HexDigit 0x30 0 := .decimal (by omega) rfl
      have hunit := CodeUnit.mk hzero hzero (hexDigit_written hhigh) (hexDigit_written hlow)
      have hcode : ((0 * 16 + 0) * 16 + c.toNat / 16) * 16 + c.toNat % 16 = c.toNat := by omega
      rw [hcode] at hunit
      rw [Utf8.encode_of_ascii (by
        simp [Quoted.toNat_hexDigit_ascii hhigh, Quoted.toNat_hexDigit_ascii hlow])]
      have hletter := Letter.unit hunit (fun h => by have := h.1; omega)
        (fun h => by have := h.1; omega)
      rw [Char.ofNat_toNat] at hletter
      exact hletter

private theorem content_escaped (chars : List Char) :
    Content (Utf8.encode (chars.flatMap Quoted.escape)) chars := by
  induction chars with
  | nil => exact .nil
  | cons c chars ih =>
      rw [List.flatMap_cons, Utf8.encode_append]
      exact .cons (letter_of_escaped (Quoted.escaped_escape c)) ih

/-! ## Tokens -/

def Writes (ts : List Token) (text : String) : Prop := Written ts (Utf8.ofString text)

theorem Written.append {ts us : List Token} {front back : Bytes} (h : Written ts front)
    (h' : Written us back) : Written (ts ++ us) (front ++ back) := by
  induction h with
  | nil => exact h'
  | cons hblank hspelled _ ih =>
      rw [List.append_assoc]
      exact .cons hblank hspelled ih

theorem Spelled.written {t : Token} {text : Bytes} (h : Spelled t text) : Written [t] text := by
  have hblank : Blank [] := fun _ hmem => absurd hmem List.not_mem_nil
  have hwritten := Written.cons hblank h .nil
  rwa [List.nil_append, List.append_nil] at hwritten

namespace Writes

variable {ts us : List Token} {text other : String}

theorem append (h : Writes ts text) (h' : Writes us other) : Writes (ts ++ us) (text ++ other) := by
  rw [Writes, Utf8.ofString_append]
  exact Written.append h h'

theorem mark {m : Mark} (h : Utf8.ofString text = [m.byte]) : Writes [.mark m] text := by
  rw [Writes, h]
  exact (Spelled.mark m).written

theorem literal (s : String) : Writes [.string s] (Quoted.literal s) := by
  have hspelled := Spelled.string (content_escaped s.toList)
  rw [String.ofList_toList] at hspelled
  have hbytes : Utf8.ofString (Quoted.literal s) =
      quoteMark :: Utf8.encode (s.toList.flatMap Quoted.escape) ++ [quoteMark] := by
    rw [Utf8.ofString, Quoted.literal, String.toList_ofList, Quoted.encode, Utf8.encode_append]
    rfl
  rw [Writes, hbytes]
  exact hspelled.written

theorem intercalate {items : List (List Token)} {texts : List String}
    (h : List.Forall₂ Writes items texts) :
    Writes ([.mark .comma].intercalate items) (",".intercalate texts) := by
  induction h with
  | nil => exact .nil
  | @cons item text items texts hitem hitems ih =>
      cases hitems with
      | nil => simpa using hitem
      | cons hnext hlater =>
          rw [List.intercalate_cons_cons, String.intercalate_cons_cons]
          exact (hitem.append (.mark rfl)).append ih

theorem member {key value : String} (h : Writes ts value) :
    Writes (Entry.tokens (key, ts)) (Json.member key value) :=
  ((literal key).append (.mark rfl)).append h

theorem object {entries : List Entry} {texts : List String}
    (h : List.Forall₂ Writes (entries.map Entry.tokens) texts) :
    Writes (Json.object entries) ("\x7b" ++ ",".intercalate texts ++ "\x7d") :=
  ((mark rfl).append (intercalate h)).append (.mark rfl)

theorem array {items : List (List Token)} {texts : List String}
    (h : List.Forall₂ Writes items texts) :
    Writes (Json.array items) ("[" ++ ",".intercalate texts ++ "]") :=
  ((mark rfl).append (intercalate h)).append (.mark rfl)

end Writes

/-! ## Values -/

def methodTokens (m : Method) : List Token :=
  object [("name", [.string m.name]), ("request_type", [.string m.request]),
    ("response_type", [.string m.response])]

private theorem writes_compactMethod (m : Method) : Writes (methodTokens m) (compactMethod m) :=
  .object (.cons (.member (.literal _)) (.cons (.member (.literal _))
    (.cons (.member (.literal _)) .nil)))

theorem methodValue_methodTokens (m : Method) : MethodValue m (methodTokens m) :=
  .object (.refl _)

def serviceTokens (s : Service) : List Token :=
  object [("package", [.string s.package]), ("service", [.string s.name]),
    ("methods", array (s.methods.map methodTokens))]

theorem writes_compact (s : Service) : Writes (serviceTokens s) (compact s) := by
  have hmethods : List.Forall₂ Writes (s.methods.map methodTokens)
      (s.methods.map compactMethod) := by
    rw [List.forall₂_map_left_iff, List.forall₂_map_right_iff, List.forall₂_same]
    exact fun m _ => writes_compactMethod m
  exact .object (.cons (.member (.literal _)) (.cons (.member (.literal _))
    (.cons (.member (.array hmethods)) .nil)))

theorem serviceValue_serviceTokens (s : Service) : ServiceValue s (serviceTokens s) := by
  refine ⟨s.methods.map methodTokens, ?_, .object (.refl _)⟩
  rw [List.forall₂_map_right_iff, List.forall₂_same]
  exact fun m _ => methodValue_methodTokens m

theorem denotes_compact (s : Service) : Denotes (Utf8.ofString (compact s)) s :=
  ⟨_, _, [], serviceValue_serviceTokens s, writes_compact s, fun _ h => absurd h List.not_mem_nil,
    (List.append_nil _).symm⟩

end ServiceHarness.Document.Json

import ServiceHarness.Proofs.Document.Toml.Tabular
import ServiceHarness.Proofs.Text.Quoting

/-!
# Tabular documents of services

Every service has a tabular document: its texts in the order of its fields, then
a section for each method, or the line that there is none.
-/

namespace ServiceHarness.Document.Toml

open ServiceHarness.Text

/-! ## Strings -/

def escape (c : Char) : List Char :=
  if c = '\x7f' then ['\\', 'u', '0', '0', '7', 'f'] else Quoted.escape c

theorem hexDigit_written {n : Nat} (h : n < 16) : HexDigit (Quoted.hexDigit n) n := by
  by_cases hten : n < 10
  · exact .decimal hten (Quoted.toNat_hexDigit_of_lt hten)
  · obtain ⟨k, rfl⟩ := Nat.exists_eq_add_of_le (Nat.le_of_not_lt hten)
    exact .lower (by omega) (Quoted.toNat_hexDigit_of_le (by omega))

theorem letter_code {c : Char} (h : c.toNat < 0x100) :
    Letter ['\\', 'u', '0', '0', Quoted.hexDigit (c.toNat / 16), Quoted.hexDigit (c.toNat % 16)]
      c := by
  have hzero : HexDigit '0' 0 := .decimal (by omega) rfl
  have hhigh := hexDigit_written (show c.toNat / 16 < 16 by omega)
  have hlow := hexDigit_written (show c.toNat % 16 < 16 by omega)
  have hnumber := (((HexNumber.nil.snoc hzero).snoc hzero).snoc hhigh).snoc hlow
  have hcode : (((0 * 16 + 0) * 16 + 0) * 16 + c.toNat / 16) * 16 + c.toNat % 16 = c.toNat := by
    omega
  rw [hcode] at hnumber
  have hletter : Letter ('\\' :: 'u' :: _) (Char.ofNat c.toNat) :=
    .code (by simp [codeEscapes]) hnumber c.valid
  rw [Char.ofNat_toNat] at hletter
  exact hletter

theorem shortEscapes_written : ∀ p ∈ Quoted.shortEscapes, p ∈ shortEscapes := by
  simp [Quoted.shortEscapes, shortEscapes]

private theorem letter_escape (c : Char) : Letter (escape c) c := by
  by_cases hdelete : c = '\x7f'
  · rw [escape, if_pos hdelete, hdelete]
    exact letter_code (c := '\x7f') (by decide)
  · rw [escape, if_neg hdelete]
    generalize hwritten : Quoted.escape c = written
    have hescaped := Quoted.escaped_escape c
    rw [hwritten] at hescaped
    cases hescaped with
    | plain hlow hquote hslash =>
        have hcode : c.toNat ≠ 0x7F := fun h => hdelete (Char.toNat_inj.mp h)
        exact .plain ⟨.inr ⟨hlow, hcode⟩, hquote, hslash⟩
    | short hshort => exact .short (shortEscapes_written _ hshort)
    | control hcontrol => exact letter_code (by omega)

private theorem content_escape (chars : List Char) : Content (chars.flatMap escape) chars := by
  induction chars with
  | nil => exact .nil
  | cons c chars ih => exact .cons (letter_escape c) ih

def basicString (s : String) : BasicString :=
  ⟨s.toList.flatMap escape, s.toList, content_escape s.toList⟩

/-! ## Lines -/

def packageKey : BareKey := ⟨"package".toList, by decide, by simp [IsBare]⟩

def serviceKey : BareKey := ⟨"service".toList, by decide, by simp [IsBare]⟩

def nameKey : BareKey := ⟨"name".toList, by decide, by simp [IsBare]⟩

def requestKey : BareKey := ⟨"request_type".toList, by decide, by simp [IsBare]⟩

def responseKey : BareKey := ⟨"response_type".toList, by decide, by simp [IsBare]⟩

def methodLines (m : Method) : List Line :=
  [.assign nameKey (basicString m.name), .assign requestKey (basicString m.request),
    .assign responseKey (basicString m.response)]

def serviceLines (s : Service) : List Line :=
  [.assign packageKey (basicString s.package), .assign serviceKey (basicString s.name)]

def noMethodsLines : List Method → List TopLine
  | [] => [.noMethods]
  | _ :: _ => []

def tabular (s : Service) : Tabular where
  top := (serviceLines s).map .line ++ noMethodsLines s.methods
  sections := s.methods.map methodLines

private theorem pair?_assign {key : BareKey} {name : String} (hkey : key.chars = name.toList)
    (s : String) :
    (Line.assign key (basicString s)).pair? = some (name, s) := by
  rw [Line.pair?, hkey, basicString, String.ofList_toList, String.ofList_toList]

theorem describesMethod_methodLines (m : Method) : DescribesMethod m (methodLines m) := by
  have htexts : (methodLines m).filterMap Line.pair? = methodTexts m := by
    rw [methodLines, List.filterMap_cons_some (pair?_assign rfl m.name),
      List.filterMap_cons_some (pair?_assign rfl m.request),
      List.filterMap_cons_some (pair?_assign rfl m.response)]
    rfl
  rw [DescribesMethod, htexts]

theorem describes_tabular (s : Service) : (tabular s).Describes s where
  texts := by
    have hservice : (serviceLines s).filterMap Line.pair? = serviceTexts s := by
      rw [serviceLines, List.filterMap_cons_some (pair?_assign rfl s.package),
        List.filterMap_cons_some (pair?_assign rfl s.name)]
      rfl
    have hrest : (noMethodsLines s.methods).filterMap TopLine.pair? = [] := by
      cases s.methods <;> rfl
    rw [tabular, List.filterMap_append, List.filterMap_map, hrest, List.append_nil]
    exact .of_eq hservice
  methods := by
    cases hmethods : s.methods with
    | nil => simp [tabular, hmethods, serviceLines, noMethodsLines, TopLine.isNoMethods]
    | cons m methods => simp [tabular, hmethods, serviceLines, noMethodsLines, TopLine.isNoMethods]
  sections := by
    rw [tabular, List.forall₂_map_right_iff, List.forall₂_same]
    exact fun m _ => describesMethod_methodLines m

end ServiceHarness.Document.Toml

import ServiceHarness.Proofs.Document.Agreement

/-!
# Written documents are read back

Blanks in front of a token do not change which tokens a text holds, so a text
that is laid out on lines holds the tokens of the compact one.  Both are read
back as the service that they were written for.
-/

namespace ServiceHarness.Document.Json

open ServiceHarness.Text

/-! ## Blanks in front of tokens -/

private theorem blank_encode {chars : List Char} (h : ∀ c ∈ chars, c = ' ' ∨ c = '\n') :
    Blank (Utf8.encode chars) := by
  have hascii : ∀ c ∈ chars, c.toNat < 0x80 := by
    intro c hc
    rcases h c hc with rfl | rfl <;> decide
  intro byte hbyte
  rw [Utf8.encode_of_ascii hascii] at hbyte
  obtain ⟨c, hc, rfl⟩ := List.mem_map.mp hbyte
  rcases h c hc with rfl | rfl <;> decide

private theorem blank_indent (depth : Nat) : Blank (Utf8.ofString ("\n" ++ indent depth)) := by
  rw [Utf8.ofString]
  refine blank_encode fun c hc => ?_
  rw [String.toList_append] at hc
  rcases List.mem_append.mp hc with hc | hc
  · exact .inr (List.mem_singleton.mp hc)
  · rw [indent, String.toList_ofList] at hc
    exact .inl (List.eq_of_mem_replicate hc)

theorem Written.blank {ts : List Token} {blanks text : Bytes} (hblanks : Blank blanks)
    (hts : ts ≠ []) (h : Written ts text) : Written ts (blanks ++ text) := by
  cases h with
  | nil => exact absurd rfl hts
  | @cons before text rest t ts hbefore hspelled hrest =>
      rw [← List.append_assoc, ← List.append_assoc]
      refine .cons (fun byte hbyte => ?_) hspelled hrest
      rcases List.mem_append.mp hbyte with hbyte | hbyte
      · exact hblanks byte hbyte
      · exact hbefore byte hbyte

namespace Writes

variable {ts : List Token} {text : String}

theorem blank {gap : String} (hgap : Blank (Utf8.ofString gap)) (hts : ts ≠ [])
    (h : Writes ts text) : Writes ts (gap ++ text) := by
  rw [Writes, Utf8.ofString_append]
  exact Written.blank hgap hts h

theorem spacedMember {key value : String} (hts : ts ≠ []) (h : Writes ts value) :
    Writes (Entry.tokens (key, ts)) (Json.spacedMember key value) := by
  have hspace : Blank (Utf8.ofString " ") := blank_encode fun c hc =>
    .inl (List.mem_singleton.mp hc)
  have hcolon : Writes [.mark .colon] ":" := mark rfl
  have htext : ":" ++ " " = ": " := rfl
  rw [Json.spacedMember, ← htext, String.append_assoc, String.append_assoc, ← String.append_assoc]
  exact ((literal key).append hcolon).append (h.blank hspace hts)

theorem lines {items : List (List Token)} {texts : List String} (depth : Nat)
    (h : List.Forall₂ Writes items texts) (hitems : ∀ item ∈ items, item ≠ [])
    (hsome : items ≠ []) :
    Writes ([.mark .comma].intercalate items)
      ("\n" ++ ",\n".intercalate (texts.map (indent depth ++ ·))) := by
  induction h with
  | nil => exact absurd rfl hsome
  | @cons item text items texts hitem hlater ih =>
      obtain ⟨hne, hrest⟩ := List.forall_mem_cons.mp hitems
      have hcomma : Writes [.mark .comma] "," := mark rfl
      have hline := hitem.blank (blank_indent depth) hne
      rw [String.append_assoc] at hline
      cases hlater with
      | nil => simpa using hline
      | cons hnext hothers =>
          have hall := (hline.append hcomma).append (ih hrest (by simp))
          have htext : ∀ rest : String, "," ++ ("\n" ++ rest) = ",\n" ++ rest :=
            fun _ => String.append_assoc.symm
          rw [List.intercalate_cons_cons, List.map_cons, List.map_cons,
            String.intercalate_cons_cons]
          simpa [String.append_assoc, htext] using hall

theorem block {items : List (List Token)} {texts : List String} (depth : Nat)
    {openText closeText : String} {openMark closeMark : Mark}
    (hopen : Utf8.ofString openText = [openMark.byte])
    (hclose : Utf8.ofString closeText = [closeMark.byte])
    (h : List.Forall₂ Writes items texts) (hitems : ∀ item ∈ items, item ≠ [])
    (hsome : items ≠ []) :
    Writes (.mark openMark :: [.mark .comma].intercalate items ++ [.mark closeMark])
      (Json.block depth openText closeText texts) := by
  have hend := (mark hclose).blank (blank_indent depth) (by simp)
  have hall := ((mark hopen).append (lines (depth + 1) h hitems hsome)).append hend
  simpa [Json.block, String.append_assoc] using hall

private theorem objectBlock {entries : List Entry} {texts : List String} (depth : Nat)
    (h : List.Forall₂ Writes (entries.map Entry.tokens) texts) (hsome : entries ≠ []) :
    Writes (Json.object entries) (Json.block depth "\x7b" "\x7d" texts) := by
  refine block depth rfl rfl h (fun item hitem => ?_) (by simpa using hsome)
  obtain ⟨e, -, rfl⟩ := List.mem_map.mp hitem
  exact List.cons_ne_nil _ _

end Writes

/-! ## Values on lines -/

private theorem writes_prettyMethod (m : Method) : Writes (methodTokens m) (prettyMethod m) :=
  .objectBlock 2 (.cons (.spacedMember (by simp) (.literal _))
    (.cons (.spacedMember (by simp) (.literal _))
      (.cons (.spacedMember (by simp) (.literal _)) .nil))) (by simp)

private theorem writes_prettyMethods (methods : List Method) :
    Writes (array (methods.map methodTokens)) (prettyMethods methods) := by
  cases methods with
  | nil => exact .array .nil
  | cons m methods =>
      refine .block 1 rfl rfl ?_ (fun item hitem => ?_) (by simp)
      · rw [List.forall₂_map_left_iff, List.forall₂_map_right_iff, List.forall₂_same]
        exact fun m _ => writes_prettyMethod m
      · obtain ⟨m, -, rfl⟩ := List.mem_map.mp hitem
        exact List.cons_ne_nil _ _

theorem writes_pretty (s : Service) : Writes (serviceTokens s) (pretty s) :=
  .objectBlock 0 (.cons (.spacedMember (by simp) (.literal _))
    (.cons (.spacedMember (by simp) (.literal _))
      (.cons (.spacedMember (List.cons_ne_nil _ _) (writes_prettyMethods s.methods)) .nil)))
    (by simp)

theorem denotes_pretty (s : Service) : Denotes (Utf8.ofString (pretty s)) s :=
  ⟨_, _, [], serviceValue_serviceTokens s, writes_pretty s, fun _ h => absurd h List.not_mem_nil,
    (List.append_nil _).symm⟩

end ServiceHarness.Document.Json

namespace ServiceHarness.Document

open ServiceHarness.Text

/-- Both texts that are written for a service are read back as it, or are beyond
the limit. -/
theorem parse_written_text (s : Service) :
    parse .json (Utf8.ofString (Json.compact s)) =
        readWithin (Utf8.ofString (Json.compact s)) s ∧
      parse .json (Utf8.ofString (Json.pretty s)) =
        readWithin (Utf8.ofString (Json.pretty s)) s :=
  ⟨parse_json_of_denotes (Json.denotes_compact s), parse_json_of_denotes (Json.denotes_pretty s)⟩

end ServiceHarness.Document

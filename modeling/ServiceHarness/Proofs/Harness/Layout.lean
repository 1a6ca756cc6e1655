import Mathlib.Data.List.Chain
import ServiceHarness.Proofs.Harness.Blocks
import ServiceHarness.Proofs.Harness.Recovery

/-!
# Layout of a harness

The number of lines, what they consist of and how they end, and where blank lines
stand.  What holds of all lines is read off the rows; where blank lines meet is
followed through the parts of the text.
-/

namespace ServiceHarness.Harness

open ServiceHarness.Text

/-! ## Characters -/

def isPlainCharacter (c : Char) : Bool :=
  c.toNat < 128 && c != '\r'

def isLineEnd (c : Char) : Bool :=
  c != ' ' && c != '\t'

private theorem isPlainCharacter_of_part {c : Char} (h : isIdentifierPart c = true) :
    isPlainCharacter c = true := by
  have hbounds := isIdentifierPart_bounds h
  have hreturn : c ≠ '\r' := ne_of_isIdentifierPart h (by decide)
  simp [isPlainCharacter, hbounds.2, hreturn]

private theorem isLineEnd_of_part {c : Char} (h : isIdentifierPart c = true) :
    isLineEnd c = true := by
  have hspace : c ≠ ' ' := ne_of_isIdentifierPart h (by decide)
  have htab : c ≠ '\t' := ne_of_isIdentifierPart h (by decide)
  simp [isLineEnd, hspace, htab]

structure Tidy (chars : List Char) : Prop where
  plain : ∀ c ∈ chars, isPlainCharacter c = true
  ending : ∀ c ∈ chars.getLast?, isLineEnd c = true

section Rows

variable {σ : Type}

def Letter.all (test : Char → Bool) : Letter σ → Bool
  | .char c => test c
  | .slot _ => true

def isTidyRow (row : List (Letter σ)) : Bool :=
  row.all (Letter.all isPlainCharacter) && row.getLast?.all (Letter.all isLineEnd)

private theorem tidy_spell {value : σ → String} (hvalue : Named value) {row : List (Letter σ)}
    (h : isTidyRow row = true) : Tidy (spell value row) := by
  rw [isTidyRow, Bool.and_eq_true, List.all_eq_true, Option.all_eq_true] at h
  obtain ⟨hplain, hending⟩ := h
  constructor
  case plain =>
    intro c hc
    rcases char_or_part_of_mem_spell hvalue hc with hchar | hpart
    · exact hplain _ hchar
    · exact isPlainCharacter_of_part hpart
  case ending =>
    intro c hc
    rcases char_or_part_of_getLast?_spell hvalue hc with hchar | hpart
    · exact hending _ hchar
    · exact isLineEnd_of_part hpart

end Rows

private theorem tidyRows :
    (∀ row ∈ openingRows ++ dispatchEndRows, isTidyRow row = true) ∧
      ∀ row ∈ caseRows ++ procedureRows, isTidyRow row = true := by
  decide +kernel

theorem tidy_harnessLines {s : Service} (hs : Renderable s) :
    ∀ line ∈ harnessLines s, Tidy line.toList := by
  apply forall_harnessLines (P := Tidy) hs
  · exact fun value hvalue row hrow => tidy_spell hvalue (tidyRows.1 row hrow)
  · exact fun value hvalue row hrow => tidy_spell hvalue (tidyRows.2 row hrow)
  · exact ⟨nofun, nofun⟩

private theorem isPlainCharacter_of_mem {s : Service} (hs : Renderable s) {c : Char}
    (h : c ∈ (harnessText s).toList) : isPlainCharacter c = true := by
  rw [harnessText, toList_joinLines, List.mem_flatMap] at h
  obtain ⟨chars, hchars, hc⟩ := h
  obtain ⟨line, hline, rfl⟩ := List.mem_map.mp hchars
  rcases List.mem_append.mp hc with hmem | hnewline
  · exact (tidy_harnessLines hs line hline).plain c hmem
  · rw [List.mem_singleton.mp hnewline]
    decide

/-! ## Blank lines -/

def Spaced (ls : List String) : Prop :=
  ls.IsChain fun above below => above ≠ "" ∨ below ≠ ""

theorem Spaced.no_two_blank {ls : List String} (h : Spaced ls) : ¬["", ""] <:+: ls := by
  rintro ⟨above, below, rfl⟩
  have hpair := (List.isChain_append.mp (List.isChain_append.mp h).1).2.1
  simp at hpair

private theorem spaced_of_not_mem {ls : List String} (h : "" ∉ ls) : Spaced ls := by
  induction ls with
  | nil => exact List.IsChain.nil
  | cons line ls ih =>
      obtain ⟨hline, hls⟩ := List.ne_and_not_mem_of_not_mem_cons h
      exact (ih hls).cons fun _ _ => .inl (Ne.symm hline)

theorem Spaced.append_of_not_mem {above below : List String} (habove : "" ∉ above)
    (hbelow : Spaced below) : Spaced (above ++ below) := by
  refine (spaced_of_not_mem habove).append hbelow fun line hline _ _ => .inl ?_
  rintro rfl
  exact habove (List.mem_of_getLast? hline)

private theorem spaced_intercalate {blocks : List (List String)}
    (h : ∀ block ∈ blocks, block ≠ [] ∧ "" ∉ block) :
    Spaced ([""].intercalate blocks) ∧ ([""].intercalate blocks).head? ≠ some "" := by
  induction blocks with
  | nil => exact ⟨List.IsChain.nil, nofun⟩
  | cons block blocks ih =>
      obtain ⟨hne, hblank⟩ := h block List.mem_cons_self
      obtain ⟨hspaced, hhead⟩ := ih fun b hb => h b (List.mem_cons_of_mem block hb)
      have hfirst : ∀ rest, (block ++ rest).head? ≠ some "" := by
        intro rest hsome
        rw [List.head?_append_of_ne_nil _ hne] at hsome
        exact hblank (List.mem_of_head? hsome)
      cases blocks with
      | nil =>
          rw [List.intercalate_singleton]
          exact ⟨spaced_of_not_mem hblank, by simpa using hfirst []⟩
      | cons next blocks =>
          rw [List.intercalate_cons_cons, List.append_assoc]
          refine ⟨Spaced.append_of_not_mem hblank ?_, hfirst _⟩
          refine hspaced.cons fun line hline => .inr ?_
          rintro rfl
          exact hhead hline

private theorem spaced_of_rows {σ : Type} {value : σ → String} (hvalue : Named value)
    {ls : List String} {rows : List (List (Letter σ))}
    (hlines : ls.map String.toList = rows.map (spell value))
    (hrows : rows.IsChain fun above below => above ≠ [] ∨ below ≠ []) : Spaced ls := by
  have hblank : ∀ row, spell value row ≠ [] ↔ row ≠ [] :=
    fun row => not_congr (spell_eq_nil_iff hvalue row)
  have hchars : (ls.map String.toList).IsChain fun above below => above ≠ [] ∨ below ≠ [] := by
    rw [hlines, List.isChain_map]
    simpa only [hblank] using hrows
  rw [List.isChain_map] at hchars
  simpa [Spaced] using hchars

private theorem getLast?_ne_blank_of_rows {σ : Type} {value : σ → String} (hvalue : Named value)
    {ls : List String} {rows : List (List (Letter σ))}
    (hlines : ls.map String.toList = rows.map (spell value))
    (hrows : rows.getLast? ≠ some []) : ls.getLast? ≠ some "" := by
  intro hlast
  have hchars := congrArg List.getLast? hlines
  rw [List.getLast?_map, List.getLast?_map, hlast] at hchars
  obtain ⟨row, hrow, hspell⟩ := Option.map_eq_some_iff.mp hchars.symm
  rw [String.toList_empty, spell_eq_nil_iff hvalue] at hspell
  exact hrows (hspell ▸ hrow)

private theorem spacedRows :
    (openingRows.IsChain fun above below => above ≠ [] ∨ below ≠ []) ∧
      (dispatchEndRows.IsChain fun above below => above ≠ [] ∨ below ≠ []) ∧
      openingRows.getLast? ≠ some [] := by
  decide +kernel

theorem spaced_harnessLines {s : Service} (hs : Renderable s) : Spaced (harnessLines s) := by
  obtain ⟨hopening, hend, hswitch⟩ := spacedRows
  have hcases : "" ∉ s.methods.flatMap (caseLines s) := by
    intro hmem
    obtain ⟨m, hm, hcase⟩ := List.mem_flatMap.mp hmem
    exact blank_not_mem_caseLines hs hm hcase
  have hprocedures : ∀ block ∈ s.methods.map (procedureLines s), block ≠ [] ∧ "" ∉ block := by
    intro block hblock
    obtain ⟨m, hm, rfl⟩ := List.mem_map.mp hblock
    refine ⟨?_, blank_not_mem_procedureLines hs hm⟩
    rw [procedureLines_eq]
    exact List.cons_ne_nil _ _
  obtain ⟨hback, hheader⟩ := spaced_intercalate hprocedures
  rw [harnessLines, List.append_assoc, List.append_assoc]
  have hlater : Spaced (dispatchEndLines s ++ [""].intercalate (s.methods.map (procedureLines s))) :=
    (spaced_of_rows hs.named_file (toList_dispatchEndLines s) hend).append hback
      fun _ _ line hline => .inr fun hblank => hheader (hblank ▸ hline)
  exact (spaced_of_rows hs.named_file (toList_openingLines s) hopening).append
    (Spaced.append_of_not_mem hcases hlater) fun line hline _ _ => .inl fun hblank =>
      getLast?_ne_blank_of_rows hs.named_file (toList_openingLines s) hswitch (hblank ▸ hline)

/-! ## The whole text -/

def bodyLines (s : Service) (m : Method) : List String :=
  (procedureLines s m).tail.dropLast

theorem procedureLines_eq_body (s : Service) (m : Method) :
    procedureLines s m = headerLine s.name m.name :: (bodyLines s m ++ ["\x7d"]) := by
  have htail : (procedureLines s m).tail = bodyLines s m ++ ["\x7d"] := rfl
  rw [← htail, ← procedureLines_eq]

/-- A procedure from its header to the brace that ends it, without a blank line and
without another header. -/
def IsProcedure (service name : String) (ls : List String) : Prop :=
  ∃ body, ls = headerLine service name :: (body ++ ["\x7d"]) ∧ "" ∉ body ∧
    ∀ line ∈ body, startsWith (headerStart service) line = false

theorem isProcedure_procedureLines {s : Service} (hs : Renderable s) {m : Method}
    (hm : m ∈ s.methods) : IsProcedure s.name m.name (procedureLines s m) := by
  have hblank := blank_not_mem_procedureLines hs hm
  have hquiet := headerStart_quiet_body hs hm
  rw [procedureLines_eq_body] at hblank hquiet
  refine ⟨bodyLines s m, procedureLines_eq_body s m, fun hmem => hblank ?_, fun line hline => ?_⟩
  · exact List.mem_cons_of_mem _ (List.mem_append_left _ hmem)
  · exact hquiet line (List.mem_append_left _ hline)

/-- How a text with one procedure for every method is laid out. -/
structure LaidOut (service : String) (methods : List Method) (text : String) : Prop where
  ascii : ∀ c ∈ text.toList, c.toNat < 128 ∧ c ≠ '\r'
  newlines : text.toList.count '\n' = 60 + 42 * methods.length
  ending : ∃ front last, text.toList = front ++ [last, '\n'] ∧ last ≠ '\n'
  blanks : ¬["", ""] <:+: lines text
  line_ends : ∀ line ∈ lines text, ∀ c ∈ line.toList.getLast?, c ≠ ' ' ∧ c ≠ '\t'
  procedures : ∃ front procedures, lines text = front ++ [""].intercalate procedures ∧
    (∀ line ∈ front, startsWith (headerStart service) line = false) ∧
    List.Forall₂ (fun m procedure => IsProcedure service m.name procedure) methods procedures

private theorem exists_ending {s : Service} (hs : Renderable s) :
    ∃ front, harnessLines s = front ++ ["\x7d"] := by
  obtain ⟨methods, m, hmethods⟩ :=
    (List.eq_nil_or_concat' s.methods).resolve_left hs.methods_ne_nil
  have hprocedures : (s.methods.flatMap fun m => procedureLines s m ++ [""]) =
      (methods.flatMap fun m => procedureLines s m ++ [""]) ++
        headerLine s.name m.name :: (bodyLines s m ++ ["\x7d", ""]) := by
    rw [hmethods, List.flatMap_append, List.flatMap_singleton, procedureLines_eq_body s m]
    simp
  have hlines := harnessLines_append_blank hs.methods_ne_nil
  rw [hprocedures] at hlines
  refine ⟨openingLines s ++ s.methods.flatMap (caseLines s) ++ dispatchEndLines s ++
    (methods.flatMap fun m => procedureLines s m ++ [""]) ++
    headerLine s.name m.name :: bodyLines s m, List.append_cancel_right (hlines.trans ?_)⟩
  simp

/--
Every text has its size fixed by the number of methods, one line end at its end, and
single blank lines between its parts: no name adds a blank, whatever it is.
-/
theorem text_laid_out {s : Service} {text : String} (h : generate s = .ok text) :
    LaidOut s.name s.methods text := by
  obtain ⟨hs, rfl⟩ := generate_eq_ok_iff.mp h
  constructor
  case ascii =>
    intro c hc
    simpa [isPlainCharacter] using isPlainCharacter_of_mem hs hc
  case newlines =>
    rw [harnessText, count_newline_joinLines (newline_not_mem_harnessLines hs),
      length_harnessLines hs.methods_ne_nil]
  case ending =>
    obtain ⟨front, hfront⟩ := exists_ending hs
    refine ⟨(joinLines front).toList, '\x7d', ?_, by decide⟩
    rw [harnessText, hfront, joinLines_append, String.toList_append]
    rfl
  case blanks =>
    rw [lines_harnessText hs]
    exact (spaced_harnessLines hs).no_two_blank
  case line_ends =>
    rw [lines_harnessText hs]
    intro line hline c hc
    simpa [isLineEnd] using (tidy_harnessLines hs line hline).ending c hc
  case procedures =>
    refine ⟨frontLines s, s.methods.map (procedureLines s), ?_, headerStart_quiet_front hs, ?_⟩
    · rw [lines_harnessText hs]
      rfl
    · rw [List.forall₂_map_right_iff, List.forall₂_same]
      exact fun m hm => isProcedure_procedureLines hs hm

/-- A service of one letter, and methods of which one has the name of the other and more. -/
theorem text_laid_out_two_methods :
    let s : Service := ⟨"p", "E", [⟨"Say", "Ask", "Reply"⟩, ⟨"SayMore", "Ask", "Reply"⟩]⟩
    generate s = .ok (harnessText s) ∧ LaidOut "E" s.methods (harnessText s) ∧
      (harnessText s).toList.count '\n' = 144 := by
  intro s
  have h : generate s = .ok (harnessText s) :=
    generate_eq_ok_iff.mpr ⟨by decide +kernel, rfl⟩
  have hlaid : LaidOut s.name s.methods (harnessText s) := text_laid_out h
  exact ⟨h, hlaid, hlaid.newlines⟩

end ServiceHarness.Harness

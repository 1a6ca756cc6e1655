import ServiceHarness.Proofs.Go.Grammar
import ServiceHarness.Proofs.Go.Members
import ServiceHarness.Proofs.Harness.Names

/-!
# Derived names

The names that a harness makes of the names in a service: they are identifiers as Go
reads them, and the members of the runner in the text do not share a name.
-/

namespace ServiceHarness.Harness

open ServiceHarness.Text ServiceHarness.Go

/-! ## Names as Go reads them -/

section Words

variable (A : Alphabet)

private theorem starts_iff {c : Char} (h : c.toNat < 0x80) :
    A.Starts c ↔ c = '_' ∨ c.isAlpha = true := by
  rw [Alphabet.Starts, A.letter_ascii c h, or_comm]

private theorem continues_iff {c : Char} (h : c.toNat < 0x80) :
    A.Continues c ↔ c = '_' ∨ c.isAlphanum = true := by
  rw [Alphabet.Continues, starts_iff A h, A.digit_ascii c h, Char.isAlphanum, Bool.or_eq_true,
    or_assoc]

private theorem mem_reserved_iff {name : String} :
    name.toList ∈ Grammar.reserved ↔ name ∈ keywords := by
  rw [← mem_reservedWords_iff]
  constructor
  · rintro ⟨word, hword, heq⟩
    rw [String.toList_inj.mp heq]
    exact hword
  · exact fun h => ⟨name, h, rfl⟩

/-- In ASCII, the identifiers of Go but for the blank one are the names that are accepted. -/
private theorem goName_iff_identifier {name : String} :
    GoName name ↔ (∀ c ∈ name.toList, c.toNat < 0x80) ∧ name ≠ "_" ∧
      name.toList ∈ Grammar.lexemes A .identifier := by
  constructor
  · intro h
    have hascii : ∀ c ∈ name.toList, c.toNat < 0x80 :=
      fun c hc => (isIdentifierPart_bounds (h.part hc)).2
    obtain ⟨first, rest, htext, hfirst, hrest⟩ := h.shape
    refine ⟨hascii, h.not_blank, Grammar.mem_word_iff.mpr ⟨first, rest, htext, ?_, ?_⟩,
      fun hreserved => h.not_keyword (mem_reserved_iff.mp hreserved)⟩
    · exact (starts_iff A (hascii first (htext ▸ List.mem_cons_self))).mpr hfirst
    · intro c hc
      exact (continues_iff A (hascii c (htext ▸ List.mem_cons_of_mem first hc))).mpr (hrest c hc)
  · rintro ⟨hascii, hblank, hword, hreserved⟩
    obtain ⟨first, rest, htext, hfirst, hrest⟩ := Grammar.mem_word_iff.mp hword
    refine ⟨⟨first, rest, htext, ?_, ?_⟩, hblank,
      fun hkeyword => hreserved (mem_reserved_iff.mpr hkeyword)⟩
    · exact (starts_iff A (hascii first (htext ▸ List.mem_cons_self))).mp hfirst
    · intro c hc
      exact (continues_iff A (hascii c (htext ▸ List.mem_cons_of_mem first hc))).mp (hrest c hc)

end Words

/-! ## Names put together -/

private theorem toList_prefix_append (front back : String) :
    front.toList <+: (front ++ back).toList := by
  rw [String.toList_append]
  exact List.prefix_append _ _

theorem GoName.append_of_ends {front back : String} (hfront : GoName front)
    (hback : back.toList.all isIdentifierPart = true)
    (hkeywords : ∀ word ∈ keywords, ¬back.toList <:+ word.toList) : GoName (front ++ back) :=
  hfront.append (List.all_eq_true.mp hback) fun hkeyword =>
    hkeywords _ hkeyword (toList_suffix_append front back)

theorem goName_runner {name : String} (h : GoName name) : GoName (name ++ "TestRunner") :=
  h.append_of_ends (by decide) (by decide)

theorem goName_client {name : String} (h : GoName name) : GoName (name ++ "Client") :=
  h.append_of_ends (by decide) (by decide)

theorem goName_procedure {name : String} (h : GoName name) : GoName ("test" ++ name) := by
  have hkeywords : ∀ word ∈ keywords, ¬"test".toList <+: word.toList := by decide
  refine GoName.append (by decide) (fun c hc => h.part hc) fun hkeyword => ?_
  exact hkeywords _ hkeyword (toList_prefix_append "test" name)

/-! ## Members of the runner -/

def runnerMembers (s : Service) : List String :=
  ["Client", "RunGRPCTest", "runTest"] ++ s.methods.map fun m => "test" ++ m.name

theorem nodup_runnerMembers {s : Service} (h : s.methodNames.Nodup) : (runnerMembers s).Nodup := by
  have hfixed : ∀ name ∈ ["Client", "RunGRPCTest", "runTest"],
      ¬"test".toList <+: name.toList := by
    decide
  have hinjective : Function.Injective fun name => "test" ++ name :=
    fun _ _ heq => (String.append_right_inj "test").mp heq
  rw [runnerMembers, List.nodup_append]
  refine ⟨by decide, ?_, ?_⟩
  · have hmap := h.map hinjective
    rwa [Service.methodNames, List.map_map] at hmap
  · rintro name hname procedure hprocedure rfl
    obtain ⟨m, -, rfl⟩ := List.mem_map.mp hprocedure
    exact hfixed _ hname (toList_prefix_append "test" m.name)

def memberTokens {σ : Type} : Line σ × Line σ → Token (Letter σ) × Token (Letter σ) :=
  Prod.map (.word ·.letters) (.word ·.letters)

private theorem boundName_memberTokens {σ : Type} (value : σ → String) (member : Line σ × Line σ) :
    Prod.map Token.boundName Token.boundName
      (Prod.map (spellToken value) (spellToken value) (memberTokens member)) =
        Prod.map (Line.fill value) (Line.fill value) member := by
  obtain ⟨type, name⟩ := member
  simp [memberTokens, Token.mapText, Token.boundName, ← toList_fill]

def openingMembers : List (Line FileSlot × Line FileSlot) :=
  [([.slot .service, "TestRunner"], ["Client"]),
    ([.slot .service, "TestRunner"], ["RunGRPCTest"]),
    ([.slot .service, "TestRunner"], ["runTest"])]

def procedureMembers : List (Line MethodSlot × Line MethodSlot) :=
  [([.slot .service, "TestRunner"], ["test", .slot .name])]

def inRunTest {β : Type} : MemberState β := ⟨dispatchBrackets, none⟩

set_option synthInstance.maxSize 300 in
private theorem memberRows :
    readLines Letter.look (MemberState.step? Letter.look) .start openingRows =
        some (openingMembers.map memberTokens, inRunTest) ∧
      readLines Letter.look (MemberState.step? Letter.look) inRunTest caseRows =
          some ([], inRunTest) ∧
        readLines Letter.look (MemberState.step? Letter.look) inRunTest dispatchEndRows =
            some ([], .start) ∧
          readLines Letter.look (MemberState.step? Letter.look) .start procedureRows =
            some (procedureMembers.map memberTokens, .start) := by
  refine ⟨?_, ?_, ?_, ?_⟩
  all_goals decide +kernel

theorem members_spell {σ : Type} {value : σ → String} (hvalue : Named value)
    {rows : List (List (Letter σ))} {st last : MemberState (Token (Letter σ))}
    {found : List (Token (Letter σ) × Token (Letter σ))}
    (hshaped : ∀ token ∈ (rowTokens rows).flatten, keepsShape token = true)
    (h : readLines Letter.look (MemberState.step? Letter.look) st rows = some (found, last)) :
    readLines id (MemberState.step? id) (st.map (spellToken value)) (rows.map (spell value)) =
      some (found.map (Prod.map (spellToken value) (spellToken value)),
        last.map (spellToken value)) :=
  readLines_spell hvalue (fun _ _ => MemberState.step_mapText) hshaped h

private theorem members_harnessLines {s : Service} (hs : Renderable s) :
    readLines id (MemberState.step? id) .start ((harnessLines s).map String.toList) =
      some ((openingMembers.map memberTokens).map
          (Prod.map (spellToken (fileValue s)) (spellToken (fileValue s))) ++
        s.methods.flatMap (fun m => (procedureMembers.map memberTokens).map
          (Prod.map (spellToken (methodNames s m)) (spellToken (methodNames s m)))),
        .start) := by
  obtain ⟨openingChecked, caseChecked, endChecked, procedureChecked⟩ := checkedRows
  obtain ⟨hopening, hcase, hend, hprocedure⟩ := memberRows
  have hall := readLines_harnessLines hs (fun st => st.step_blank id)
    (members_spell hs.named_file openingChecked.shaped hopening)
    (fun m hm => members_spell (hs.named_method hm) caseChecked.shaped hcase)
    (members_spell hs.named_file endChecked.shaped hend)
    (fun m hm => members_spell (hs.named_method hm) procedureChecked.shaped hprocedure)
  rw [MemberState.map_start] at hall
  rw [hall]
  simp

theorem members_harnessText {s : Service} (hs : Renderable s) :
    members? (harnessText s) =
      some ((runnerMembers s).map fun name => (s.name ++ "TestRunner", name)) := by
  have hbound : ∀ {σ : Type} (value : σ → String) (names : List (Line σ × Line σ)),
      ((names.map memberTokens).map (Prod.map (spellToken value) (spellToken value))).map
        (Prod.map Token.boundName Token.boundName) =
          names.map (Prod.map (Line.fill value) (Line.fill value)) := by
    intro σ value names
    rw [List.map_map, List.map_map]
    exact List.map_congr_left fun member _ => boundName_memberTokens value member
  rw [members?, lines_harnessText hs, members_harnessLines hs, Option.bind_some]
  change some _ = some _
  simp only [List.map_append, List.map_flatMap, hbound]
  simp [openingMembers, procedureMembers, runnerMembers, fill_cons, fill_nil, Line.fillPiece,
    fileValue, methodNames, methodValue, ← List.map_eq_flatMap, Function.comp_def]

/--
A name is accepted exactly if it is in ASCII and Go reads it as one identifier that is
not the blank one, whatever the letters and digits beyond ASCII are.  If a text is
generated, the names made of others are accepted too, and the members of the runner in
the text have distinct names.
-/
theorem derived_names_usable :
    (∀ (A : Alphabet) (name : String), isIdentifier name = true ↔
      (∀ c ∈ name.toList, c.toNat < 0x80) ∧ name ≠ "_" ∧
        ∀ items, Grammar.Reads A name.toList items ↔ items = [(.identifier, name.toList)]) ∧
    ∀ (s : Service) (text : String), generate s = .ok text →
      isIdentifier (s.name ++ "TestRunner") = true ∧ isIdentifier (s.name ++ "Client") = true ∧
        (∀ m ∈ s.methods, isIdentifier ("test" ++ m.name) = true) ∧
        members? text = some ((runnerMembers s).map fun name => (s.name ++ "TestRunner", name)) ∧
        (runnerMembers s).Nodup := by
  constructor
  · intro A name
    rw [isIdentifier_iff, goName_iff_identifier A, Grammar.reads_identifier_iff]
  · intro s text h
    obtain ⟨hs, rfl⟩ := generate_eq_ok_iff.mp h
    simp only [isIdentifier_iff]
    exact ⟨goName_runner hs.service_name, goName_client hs.service_name,
      fun m hm => goName_procedure (hs.method_name m hm), members_harnessText hs,
      nodup_runnerMembers hs.distinct⟩

/-- The names of the fixed members, and those of procedures, are free for methods. -/
theorem derived_names_usable_fixed_names :
    let s : Service := ⟨"pb", "Run", [⟨"Client", "Ask", "Reply"⟩, ⟨"runTest", "Ask", "Reply"⟩,
      ⟨"testClient", "Ask", "Reply"⟩]⟩
    generate s = .ok (harnessText s) ∧ isIdentifier "RunTestRunner" = true ∧
      members? (harnessText s) = some
        (["Client", "RunGRPCTest", "runTest", "testClient", "testrunTest", "testtestClient"].map
          fun name => ("RunTestRunner", name)) ∧
      (runnerMembers s).Nodup ∧ ∀ items, Grammar.Reads .ascii "RunTestRunner".toList items ↔
        items = [(.identifier, "RunTestRunner".toList)] := by
  intro s
  have h : generate s = .ok (harnessText s) := generate_eq_ok_iff.mpr ⟨by decide, rfl⟩
  obtain ⟨hrunner, -, -, hmembers, hdistinct⟩ := derived_names_usable.2 s _ h
  exact ⟨h, hrunner, hmembers, hdistinct, ((derived_names_usable.1 .ascii _).mp hrunner).2.2⟩

end ServiceHarness.Harness

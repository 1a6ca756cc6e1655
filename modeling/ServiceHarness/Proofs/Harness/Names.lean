import ServiceHarness.Proofs.Go.Declarations
import ServiceHarness.Proofs.Harness.Reading

/-!
# Names of a harness

What the text of a harness imports and declares, read off the text, and whether
these names meet those that the package around it has to declare.
-/

namespace ServiceHarness.Harness

open ServiceHarness.Text ServiceHarness.Go

/-! ## What a harness declares -/

def nameToken {σ : Type} : Kind × Line σ → Kind × Token (Letter σ)
  | (.imported, path) => (.imported, .literal path.letters)
  | (kind, name) => (kind, .word name.letters)

def openingNames : List (Kind × Line FileSlot) :=
  [(.imported, ["context"]), (.imported, ["encoding/json"]), (.imported, ["io/ioutil"]),
    (.imported, ["reflect"]), (.imported, ["testing"]),
    (.imported, ["google.golang.org/grpc/codes"]), (.imported, ["google.golang.org/grpc/status"]),
    (.type, [.slot .service, "TestRunner"]), (.function, ["NewTestClient"]),
    (.method, ["RunGRPCTest"]), (.constant, ["actionJSONKey"]), (.constant, ["requestJSONKey"]),
    (.constant, ["expectedResponseJSONKey"]), (.constant, ["errorExpectationJSONKey"]),
    (.constant, ["expectedErrorCodeJSONKey"]), (.method, ["runTest"])]

def procedureNames : List (Kind × Line MethodSlot) :=
  [(.method, ["test", .slot .name])]

def inDispatch : State := ⟨dispatchBrackets, .body⟩

set_option synthInstance.maxSize 300 in
private theorem declaringRows :
    State.start.read? Letter.look openingRows = some (openingNames.map nameToken, inDispatch) ∧
      inDispatch.read? Letter.look caseRows = some ([], inDispatch) ∧
        inDispatch.read? Letter.look dispatchEndRows = some ([], .start) ∧
          State.start.read? Letter.look procedureRows =
            some (procedureNames.map nameToken, .start) := by
  decide +kernel

def harnessDeclarations (s : Service) : List (Kind × String) :=
  [(.imported, "context"), (.imported, "json"), (.imported, "ioutil"), (.imported, "reflect"),
    (.imported, "testing"), (.imported, "codes"), (.imported, "status"),
    (.type, s.name ++ "TestRunner"), (.function, "NewTestClient"), (.method, "RunGRPCTest"),
    (.constant, "actionJSONKey"), (.constant, "requestJSONKey"),
    (.constant, "expectedResponseJSONKey"), (.constant, "errorExpectationJSONKey"),
    (.constant, "expectedErrorCodeJSONKey"), (.method, "runTest")] ++
    s.methods.map fun m => (.method, "test" ++ m.name)

def spellName {σ : Type} (value : σ → String) : Kind × Line σ → Kind × String
  | (.imported, path) => (.imported, packageName (path.fill value))
  | (kind, name) => (kind, name.fill value)

private theorem boundName_nameToken {σ : Type} (value : σ → String) (declared : Kind × Line σ) :
    Prod.map id (fun token => (spellToken value token).boundName) (nameToken declared) =
      spellName value declared := by
  obtain ⟨kind, name⟩ := declared
  cases kind <;> simp [nameToken, spellName, Token.mapText, Token.boundName, ← toList_fill]

theorem read_spell {σ : Type} {value : σ → String} (hvalue : Named value)
    {rows : List (List (Letter σ))} {st last : State} {found : List (Kind × Token (Letter σ))}
    (hshaped : ∀ token ∈ (rowTokens rows).flatten, keepsShape token = true)
    (h : st.read? Letter.look rows = some (found, last)) :
    readLines id (State.step? id) st (rows.map (spell value)) =
      some (found.map (Prod.map id (spellToken value)), last) := by
  rw [State.read_eq_readLines] at h
  exact readLines_spell (g := id) hvalue (fun _ _ => State.step_mapText) hshaped h

private theorem read_harnessLines {s : Service} (hs : Renderable s) :
    State.start.read? id ((harnessLines s).map String.toList) =
      some ((openingNames.map nameToken).map (Prod.map id (spellToken (fileValue s))) ++
        s.methods.flatMap (fun m =>
          (procedureNames.map nameToken).map (Prod.map id (spellToken (methodNames s m)))),
        .start) := by
  obtain ⟨openingChecked, caseChecked, endChecked, procedureChecked⟩ := checkedRows
  obtain ⟨hopening, hcase, hend, hprocedure⟩ := declaringRows
  rw [State.read_eq_readLines, readLines_harnessLines hs (fun _ => State.step_blank)
    (read_spell hs.named_file openingChecked.shaped hopening)
    (fun m hm => read_spell (hs.named_method hm) caseChecked.shaped hcase)
    (read_spell hs.named_file endChecked.shaped hend)
    (fun m hm => read_spell (hs.named_method hm) procedureChecked.shaped hprocedure)]
  simp

private theorem packageName_imports :
    ["context", "encoding/json", "io/ioutil", "reflect", "testing",
      "google.golang.org/grpc/codes", "google.golang.org/grpc/status"].map packageName =
      ["context", "json", "ioutil", "reflect", "testing", "codes", "status"] := by
  decide

private theorem spellName_names (s : Service) :
    openingNames.map (spellName (fileValue s)) ++
        s.methods.flatMap (fun m => procedureNames.map (spellName (methodNames s m))) =
      harnessDeclarations s := by
  have hpackages := packageName_imports
  simp only [List.map_cons, List.map_nil, List.cons.injEq, and_true] at hpackages
  simp [openingNames, procedureNames, spellName, harnessDeclarations, fill_cons, fill_nil,
    Line.fillPiece, hpackages, ← List.map_eq_flatMap, fileValue, methodNames, methodValue]

theorem declarations_harnessText {s : Service} (hs : Renderable s) :
    declarations? (harnessText s) = some (harnessDeclarations s) := by
  have hbound : ∀ {σ : Type} (value : σ → String) (names : List (Kind × Line σ)),
      ((names.map nameToken).map (Prod.map id (spellToken value))).map
        (Prod.map id Token.boundName) = names.map (spellName value) := by
    intro σ value names
    rw [List.map_map, List.map_map]
    exact List.map_congr_left fun declared _ => boundName_nameToken value declared
  rw [declarations?, lines_harnessText hs, read_harnessLines hs, Option.bind_some]
  change some _ = some _
  rw [← spellName_names]
  simp only [List.map_append, List.map_flatMap, hbound]

/-! ## Names around a harness -/

def importNames : List String :=
  ["context", "json", "ioutil", "reflect", "testing", "codes", "status"]

def ownNames : List String :=
  ["NewTestClient", "actionJSONKey", "requestJSONKey", "expectedResponseJSONKey",
    "errorExpectationJSONKey", "expectedErrorCodeJSONKey"]

/-- The names of the package block that a harness takes. -/
def declaredNames (s : Service) : List String :=
  importNames ++ (s.name ++ "TestRunner") :: ownNames

/-- The names that the package around a harness has to declare: the client type
and the message types. -/
def requiredNames (s : Service) : List String :=
  (s.name ++ "Client") :: s.methods.flatMap fun m => [m.request, m.response]

theorem packageNames_harnessDeclarations (s : Service) :
    packageNames (harnessDeclarations s) = declaredNames s := by
  simp [packageNames, harnessDeclarations, declaredNames, importNames, ownNames]

theorem toList_suffix_append (start tail : String) :
    tail.toList <:+ (start ++ tail).toList := by
  rw [String.toList_append]
  exact List.suffix_append _ _

theorem fixedNames_cases : ∀ name ∈ importNames ++ ownNames,
    ¬"TestRunner".toList <:+ name.toList ∧
      ("Client".toList <:+ name.toList → name = "NewTestClient") ∧ name ∈ harnessNames := by
  decide

private theorem runner_not_fixed (s : Service) : s.name ++ "TestRunner" ∉ importNames ++ ownNames :=
  fun h => (fixedNames_cases _ h).1 (toList_suffix_append _ _)

theorem mem_declaredNames_iff {s : Service} {name : String} :
    name ∈ declaredNames s ↔ name = s.name ++ "TestRunner" ∨ name ∈ importNames ++ ownNames := by
  rw [declaredNames, List.mem_append, List.mem_cons, List.mem_append]
  tauto

theorem nodup_declaredNames (s : Service) : (declaredNames s).Nodup := by
  rw [declaredNames, List.perm_middle.nodup_iff, List.nodup_cons]
  exact ⟨runner_not_fixed s, by decide⟩

theorem client_mem_declaredNames_iff {s : Service} :
    s.name ++ "Client" ∈ declaredNames s ↔ s.name = "NewTest" := by
  rw [mem_declaredNames_iff]
  constructor
  · rintro (hrunner | hfixed)
    · exact absurd ((String.append_right_inj s.name).mp hrunner) (by decide)
    · have hclient : s.name ++ "Client" = "NewTest" ++ "Client" :=
        (fixedNames_cases _ hfixed).2.1 (toList_suffix_append _ _)
      exact (String.append_left_inj "Client").mp hclient
  · intro hname
    rw [hname]
    exact .inr (by decide)

theorem type_mem_declaredNames_iff {s : Service} {name : String} (h : TypeName name) :
    name ∈ declaredNames s ↔ name = s.name ++ "TestRunner" := by
  rw [mem_declaredNames_iff, or_iff_left fun hfixed => h.2 (fixedNames_cases _ hfixed).2.2]

/--
The names that the text of a harness imports or declares at package level are
distinct.  They meet a name that the package has to declare exactly if the
service is called so that its client is the constructor of the runner, or if a
message type is called like the runner.
-/
theorem declared_names_clash_iff {s : Service} {text : String} (h : generate s = .ok text) :
    (declarations? text).map packageNames = some (declaredNames s) ∧ (declaredNames s).Nodup ∧
      ((∀ name ∈ requiredNames s, name ∉ declaredNames s) ↔
        s.name ≠ "NewTest" ∧ ∀ m ∈ s.methods,
          m.request ≠ s.name ++ "TestRunner" ∧ m.response ≠ s.name ++ "TestRunner") := by
  obtain ⟨hs, rfl⟩ := generate_eq_ok_iff.mp h
  refine ⟨?_, nodup_declaredNames s, ?_⟩
  · rw [declarations_harnessText hs, Option.map_some, packageNames_harnessDeclarations]
  · have htypes : ∀ m ∈ s.methods,
        (∀ name ∈ [m.request, m.response], name ∉ declaredNames s) ↔
          m.request ≠ s.name ++ "TestRunner" ∧ m.response ≠ s.name ++ "TestRunner" := by
      intro m hm
      simp [type_mem_declaredNames_iff (hs.request_name m hm),
        type_mem_declaredNames_iff (hs.response_name m hm)]
    rw [requiredNames, List.forall_mem_cons, client_mem_declaredNames_iff,
      List.forall_mem_flatMap]
    exact and_congr_right fun _ => forall₂_congr htypes

/-- The client of this service is called like the constructor of its runner. -/
theorem declared_names_clash_iff_client :
    let s : Service := ⟨"pb", "NewTest", [⟨"Say", "Ask", "Reply"⟩]⟩
    generate s = .ok (harnessText s) ∧ ¬∀ name ∈ requiredNames s, name ∉ declaredNames s := by
  intro s
  have h : generate s = .ok (harnessText s) :=
    generate_eq_ok_iff.mpr ⟨by decide, rfl⟩
  exact ⟨h, fun hclear => ((declared_names_clash_iff h).2.2.mp hclear).1 rfl⟩

/-- A request type called like the runner is accepted. -/
theorem accepted_request_clashes_with_runner :
    ¬∀ (s : Service) (text : String), generate s = .ok text →
      ∃ names, (declarations? text).map packageNames = some names ∧ names.Nodup ∧
        ∀ name ∈ requiredNames s, name ∉ names := by
  intro hall
  have hs : Renderable ⟨"pb", "Foo", [⟨"Hello", "FooTestRunner", "HRes"⟩]⟩ := by decide
  obtain ⟨names, hnames, -, hclear⟩ := hall _ _ (generate_eq_ok_iff.mpr ⟨hs, rfl⟩)
  rw [declarations_harnessText hs, Option.map_some, packageNames_harnessDeclarations] at hnames
  cases hnames
  exact hclear "FooTestRunner" (by decide) (by decide)

end ServiceHarness.Harness

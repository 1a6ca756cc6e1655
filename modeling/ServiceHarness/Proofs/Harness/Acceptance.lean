import ServiceHarness.Harness.Generation
import ServiceHarness.Proofs.Harness.Identifiers
import ServiceHarness.Proofs.Service.Validity

/-!
# Acceptance

Which descriptions have a harness, and which error the others get.  `Renderable`
is the rule for acceptance.  `failures` lists everything that is wrong with a
description in the order of reporting, where a duplicate is judged by the
methods in front and not by a set that is carried along; generation reports the
first entry.  `complaints` says the same in the words of the messages.
-/

namespace ServiceHarness.Harness

/-- A name for a message type: a Go name that the harness does not use itself. -/
def TypeName (s : String) : Prop :=
  GoName s ∧ s ∉ harnessNames

structure Renderable (s : Service) : Prop where
  package_ne_empty : s.package ≠ ""
  name_ne_empty : s.name ≠ ""
  methods_ne_nil : s.methods ≠ []
  fields_ne_empty : ∀ m ∈ s.methods, m.name ≠ "" ∧ m.request ≠ "" ∧ m.response ≠ ""
  package_name : GoName s.package
  service_name : GoName s.name
  method_name : ∀ m ∈ s.methods, GoName m.name
  request_name : ∀ m ∈ s.methods, TypeName m.request
  response_name : ∀ m ∈ s.methods, TypeName m.response
  distinct : s.methodNames.Nodup

/-! ## The list of failures -/

def identifierFailures (field : Field) (value : String) : List NamingError :=
  if GoName value then [] else [.invalidIdentifier field value]

def typeFailures (field : Field) (value : String) : List NamingError :=
  identifierFailures field value ++
    if value ∈ harnessNames then [.reservedName field value] else []

def methodFailures (earlier : List String) (m : Method) : List NamingError :=
  identifierFailures .methodName m.name ++
    typeFailures .requestType m.request ++
    typeFailures .responseType m.response ++
    if m.name ∈ earlier then [.duplicateMethod m.name] else []

def methodsFailures (all : List Method) (start : Nat) (methods : List Method) :
    List NamingError :=
  (methods.zipIdx start).flatMap fun (m, index) =>
    methodFailures ((all.take index).map Method.name) m

def namingFailures (s : Service) : List NamingError :=
  identifierFailures .package s.package ++
    identifierFailures .service s.name ++
    methodsFailures s.methods 0 s.methods

def failures (s : Service) : List GenerationError :=
  s.violations.map .validation ++ (namingFailures s).map .naming

/-! ## The list of complaints -/

/-- What a reader is told: the label and the value at fault, if there are any, and
the whole text. -/
structure Complaint where
  labelled : Option (String × String)
  text : String
  deriving DecidableEq, Repr

def GenerationError.complaint (e : GenerationError) : Complaint where
  labelled :=
    match e with
    | naming (.invalidIdentifier field value) => some (field.label, value)
    | naming (.reservedName field value) => some (field.label, value)
    | _ => none
  text := e.message

def identifierComplaints (label value : String) : List Complaint :=
  if GoName value then []
  else [⟨some (label, value), label ++ " `" ++ value ++ "` is not a valid Go identifier"⟩]

def typeComplaints (label value : String) : List Complaint :=
  identifierComplaints label value ++
    if value ∈ harnessNames then
      [⟨some (label, value),
        label ++ " `" ++ value ++ "` collides with a name declared by the harness"⟩]
    else []

def methodComplaints (earlier : List String) (m : Method) : List Complaint :=
  identifierComplaints "method name" m.name ++
    typeComplaints "request type" m.request ++
    typeComplaints "response type" m.response ++
    if m.name ∈ earlier then [⟨none, "method " ++ m.name ++ " is declared more than once"⟩] else []

def complaints (s : Service) : List Complaint :=
  s.violations.map (fun v => ⟨none, "invalid service description: " ++ v.message⟩) ++
    identifierComplaints "package identifier" s.package ++
    identifierComplaints "service name" s.name ++
    s.methods.zipIdx.flatMap fun (m, index) =>
      methodComplaints ((s.methods.take index).map Method.name) m

def NamingError.complaint (e : NamingError) : Complaint :=
  (GenerationError.naming e).complaint

private theorem map_complaint_identifierFailures (field : Field) (value : String) :
    (identifierFailures field value).map NamingError.complaint =
      identifierComplaints field.label value := by
  rw [identifierFailures, identifierComplaints]
  split <;> rfl

private theorem map_complaint_typeFailures (field : Field) (value : String) :
    (typeFailures field value).map NamingError.complaint = typeComplaints field.label value := by
  rw [typeFailures, typeComplaints, List.map_append, map_complaint_identifierFailures]
  split <;> rfl

private theorem map_complaint_methodFailures (earlier : List String) (m : Method) :
    (methodFailures earlier m).map NamingError.complaint = methodComplaints earlier m := by
  simp only [methodFailures, methodComplaints, List.map_append,
    map_complaint_identifierFailures, map_complaint_typeFailures, Field.label]
  split <;> rfl

private theorem map_complaint_failures (s : Service) :
    (failures s).map GenerationError.complaint = complaints s := by
  have hviolations : s.violations.map (GenerationError.complaint ∘ GenerationError.validation) =
      s.violations.map fun v => ⟨none, "invalid service description: " ++ v.message⟩ := rfl
  have hnaming : GenerationError.complaint ∘ GenerationError.naming = NamingError.complaint := rfl
  simp only [failures, complaints, namingFailures, methodsFailures, List.map_append, List.map_map,
    List.map_flatMap, hviolations, hnaming, map_complaint_identifierFailures,
    map_complaint_methodFailures, Field.label, List.append_assoc]

/-! ## Checks report first failures -/

def firstOf {ε : Type} : List ε → Except ε Unit
  | [] => .ok ()
  | e :: _ => .error e

private theorem firstOf_append {ε : Type} (a b : List ε) :
    firstOf (a ++ b) = (do firstOf a; firstOf b) := by
  cases a <;> rfl

theorem requireIdentifier_eq (field : Field) (value : String) :
    requireIdentifier field value = firstOf (identifierFailures field value) := by
  unfold requireIdentifier identifierFailures
  by_cases h : GoName value
  · rw [if_pos ((isIdentifier_iff value).mpr h), if_pos h, firstOf]
  · rw [if_neg (fun hi => h ((isIdentifier_iff value).mp hi)), if_neg h, firstOf]

private theorem requireTypeName_eq (field : Field) (value : String) :
    requireTypeName field value = firstOf (typeFailures field value) := by
  rw [typeFailures, firstOf_append, requireTypeName, requireIdentifier_eq]
  congr 1
  funext _
  by_cases h : value ∈ harnessNames
  · rw [if_pos ((isHarnessName_iff value).mpr h), if_pos h]
    rfl
  · rw [if_neg (fun hi => h ((isHarnessName_iff value).mp hi)), if_neg h]
    rfl

theorem checkMethod_eq (seen earlier : List String) (m : Method)
    (hseen : ∀ name, name ∈ seen ↔ name ∈ earlier) :
    checkMethod seen m = firstOf (methodFailures earlier m) := by
  have hduplicate :
      (if seen.contains m.name then throw (.duplicateMethod m.name) else pure ()) =
        firstOf (if m.name ∈ earlier then [NamingError.duplicateMethod m.name] else []) := by
    by_cases h : m.name ∈ earlier
    · rw [if_pos (by simpa using (hseen m.name).mpr h), if_pos h]
      rfl
    · rw [if_neg (by simpa using fun hi => h ((hseen m.name).mp hi)), if_neg h]
      rfl
  simp only [checkMethod, methodFailures, firstOf_append, requireIdentifier_eq,
    requireTypeName_eq, bind_assoc, ← hduplicate]

/-- The loop invariant: `seen` holds the names of the methods before the
remaining ones. -/
private theorem checkMethods_eq (earlier rest : List Method) (seen : List String)
    (hseen : ∀ name, name ∈ seen ↔ name ∈ earlier.map Method.name) :
    checkMethods seen rest =
      firstOf (methodsFailures (earlier ++ rest) earlier.length rest) := by
  induction rest generalizing earlier seen with
  | nil => rfl
  | cons m rest ih =>
      have hlater : ∀ name, name ∈ m.name :: seen ↔
          name ∈ (earlier ++ [m]).map Method.name := by
        intro name
        simp [hseen, or_comm]
      have htail := ih (earlier ++ [m]) (m.name :: seen) hlater
      rw [List.append_assoc, List.singleton_append, List.length_append,
        List.length_singleton] at htail
      rw [checkMethods, checkMethod_eq seen _ m hseen, htail]
      simp only [methodsFailures, List.zipIdx_cons, List.flatMap_cons, firstOf_append,
        List.take_left]

theorem checkNames_eq (s : Service) : checkNames s = firstOf (namingFailures s) := by
  have hmethods := checkMethods_eq [] s.methods [] (by simp)
  simp only [checkNames, namingFailures, firstOf_append, requireIdentifier_eq, bind_assoc,
    hmethods, List.nil_append, List.length_nil]

/-! ## When nothing fails -/

theorem identifierFailures_eq_nil_iff (field : Field) (value : String) :
    identifierFailures field value = [] ↔ GoName value := by
  simp [identifierFailures]

private theorem typeFailures_eq_nil_iff (field : Field) (value : String) :
    typeFailures field value = [] ↔ TypeName value := by
  simp [typeFailures, identifierFailures_eq_nil_iff, TypeName]

theorem methodFailures_eq_nil_iff (earlier : List String) (m : Method) :
    methodFailures earlier m = [] ↔
      GoName m.name ∧ TypeName m.request ∧ TypeName m.response ∧ m.name ∉ earlier := by
  simp [methodFailures, identifierFailures_eq_nil_iff, typeFailures_eq_nil_iff]

theorem methodsFailures_eq_nil_iff (earlier rest : List Method) :
    methodsFailures (earlier ++ rest) earlier.length rest = [] ↔
      (∀ m ∈ rest, GoName m.name ∧ TypeName m.request ∧ TypeName m.response) ∧
        (rest.map Method.name).Nodup ∧
        ∀ m ∈ rest, m.name ∉ earlier.map Method.name := by
  induction rest generalizing earlier with
  | nil => simp [methodsFailures]
  | cons m rest ih =>
      have htail := ih (earlier ++ [m])
      rw [List.append_assoc, List.singleton_append, List.length_append,
        List.length_singleton] at htail
      have hcons : methodsFailures (earlier ++ m :: rest) earlier.length (m :: rest) =
          methodFailures (earlier.map Method.name) m ++
            methodsFailures (earlier ++ m :: rest) (earlier.length + 1) rest := by
        simp only [methodsFailures, List.zipIdx_cons, List.flatMap_cons, List.take_left]
      rw [hcons, List.append_eq_nil_iff, methodFailures_eq_nil_iff, htail]
      simp only [List.forall_mem_cons, List.map_cons, List.nodup_cons, List.map_append,
        List.mem_append, List.mem_map, List.map_nil, List.mem_singleton, not_or]
      grind

theorem failures_eq_nil_iff (s : Service) : failures s = [] ↔ Renderable s := by
  have hmethods := methodsFailures_eq_nil_iff [] s.methods
  simp only [List.nil_append, List.length_nil, List.map_nil, List.not_mem_nil,
    not_false_eq_true, implies_true, and_true] at hmethods
  simp only [failures, namingFailures, List.append_eq_nil_iff, List.map_eq_nil_iff,
    Service.violations_eq_nil_iff, identifierFailures_eq_nil_iff, hmethods]
  constructor
  · rintro ⟨⟨hp, hn, hm, hf⟩, ⟨hpackage, hservice⟩, hnames, hdistinct⟩
    exact ⟨hp, hn, hm, hf, hpackage, hservice, fun m h => (hnames m h).1,
      fun m h => (hnames m h).2.1, fun m h => (hnames m h).2.2, hdistinct⟩
  · intro h
    exact ⟨⟨h.package_ne_empty, h.name_ne_empty, h.methods_ne_nil, h.fields_ne_empty⟩,
      ⟨h.package_name, h.service_name⟩,
      fun m hm => ⟨h.method_name m hm, h.request_name m hm, h.response_name m hm⟩,
      h.distinct⟩

instance (s : Service) : Decidable (Renderable s) :=
  decidable_of_iff _ (failures_eq_nil_iff s)

/-! ## Generation -/

theorem generate_eq (s : Service) :
    generate s =
      match failures s with
      | [] => .ok (harnessText s)
      | e :: _ => .error e := by
  cases hviolations : s.violations with
  | cons violation rest =>
      have hservice := ValidService.ofService_eq_error hviolations
      simp only [generate, Generator.ofService, hservice, failures, hviolations,
        List.map_cons, List.cons_append]
      rfl
  | nil =>
      have hservice := ValidService.ofService_eq_ok hviolations
      simp only [generate, Generator.ofService, hservice, failures, hviolations,
        List.map_nil, List.nil_append]
      change Generator.generate ⟨⟨s, hviolations⟩⟩ = _
      simp only [Generator.generate, render, checkNames_eq]
      cases namingFailures s <;> rfl

theorem generate_eq_ok_iff {s : Service} {text : String} :
    generate s = .ok text ↔ Renderable s ∧ text = harnessText s := by
  rw [generate_eq, ← failures_eq_nil_iff]
  cases failures s with
  | nil => simp [eq_comm]
  | cons e rest => simp

theorem generate_eq_error_iff {s : Service} {e : GenerationError} :
    generate s = .error e ↔ (failures s).head? = some e := by
  rw [generate_eq]
  cases failures s with
  | nil => simp
  | cons first rest => simp

theorem Generator.generate_eq_generate (g : Generator) :
    g.generate = Harness.generate g.service.service := by
  have hservice := ValidService.ofService_eq_ok g.service.valid
  simp only [Harness.generate, Generator.ofService, hservice]
  rfl

theorem mapError_complaint_generate (s : Service) :
    (generate s).mapError GenerationError.complaint =
      match complaints s with
      | [] => .ok (harnessText s)
      | c :: _ => .error c := by
  rw [generate_eq, ← map_complaint_failures]
  cases failures s <;> rfl

/--
Acceptance and the first error, with its label, its value and its text, for a
description and for every generator that holds one.
-/
theorem generate_reports_first_failure (s : Service) :
    ((∃ text, generate s = .ok text) ↔ Renderable s) ∧
      (∀ e, generate s = .error e ↔ (failures s).head? = some e) ∧
      (generate s).mapError GenerationError.complaint =
        (match complaints s with
        | [] => .ok (harnessText s)
        | c :: _ => .error c) ∧
      (do let g ← Generator.ofService s; g.generate) = generate s ∧
      ∀ g : Generator, g.generate = generate g.service.service := by
  refine ⟨?_, fun e => generate_eq_error_iff, mapError_complaint_generate s, rfl,
    Generator.generate_eq_generate⟩
  constructor
  · rintro ⟨text, htext⟩
    exact (generate_eq_ok_iff.mp htext).1
  · intro h
    exact ⟨harnessText s, generate_eq_ok_iff.mpr ⟨h, rfl⟩⟩

end ServiceHarness.Harness

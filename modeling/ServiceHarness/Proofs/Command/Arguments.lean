import Mathlib.Data.List.Basic
import ServiceHarness.Command.Arguments
import ServiceHarness.Proofs.Outcome

/-!
# One line of parameters for two verbs

Verbs that take the same parameters read the same line in the same way, up to
the words in their errors.  So a line that says where to write a harness also
says which file to check.
-/

namespace ServiceHarness.Command

open ServiceHarness.Text ServiceHarness.Storage

variable {v v' : Verb} {g g' : Given} {c : Command}

namespace Given

private theorem add_of_verb {p : Parameter} {value : Bytes} (h : g.add v p value = .ok g')
    (v' : Verb) : g.add v' p value = .ok g' := by
  rw [add] at h ⊢
  by_cases hrepeated : (g.value? p).isSome
  · rw [if_pos hrepeated] at h
    cases h
  · rw [if_neg hrepeated] at h ⊢
    exact h

private theorem settle_of_verb (h : g.settle v = .ok g') (v' : Verb) : g.settle v' = .ok g' := by
  rw [settle] at h ⊢
  rcases hpending : g.pending with _ | ⟨p, _ | value⟩
  · simpa only [hpending] using h
  · simp only [hpending] at h
    cases h
  · simp only [hpending] at h ⊢
    exact add_of_verb h v'

private theorem finish_of_verb (h : g.finish v = .ok (.run c)) (v' : Verb) :
    ∃ read : Given, read.command v = .ok c ∧
      g.finish v' = (read.command v').map Request.run := by
  obtain ⟨read, hsettle, h⟩ := bind_eq_ok_iff.mp h
  obtain ⟨c', hcommand, h⟩ := bind_pure_eq_ok_iff.mp h
  cases h
  refine ⟨read, hcommand, ?_⟩
  rw [finish, settle_of_verb hsettle v']
  rfl

private theorem tell_ne_run (text : String) : g.tell v text ≠ .ok (.run c) := by
  intro h
  obtain ⟨read, -, h⟩ := bind_eq_ok_iff.mp h
  cases h

end Given

private theorem otherName_ne_run (name : Bytes) (value : Option Bytes) :
    otherName v g name value ≠ .ok (.run c) := by
  rw [otherName.eq_def]
  by_cases hhelp : name = Utf8.ofString helpWord
  · simp only [if_pos hhelp]
    cases value with
    | none => exact Given.tell_ne_run _
    | some text => simp
  · simp [if_neg hhelp]

private theorem parseVerb_of_verb (hsame : v.parameters = v'.parameters) {words : List Bytes}
    (h : parseVerb v g words = .ok (.run c)) :
    ∃ read : Given, read.command v = .ok c ∧
      parseVerb v' g words = (read.command v').map Request.run := by
  have hparameter : v'.parameter? = v.parameter? := by
    funext word
    rw [Verb.parameter?, Verb.parameter?, hsame]
  induction words generalizing g with
  | nil => exact Given.finish_of_verb h v'
  | cons word rest ih =>
      rw [parseVerb.eq_def] at h ⊢
      cases hshape : Shape.of word with
      | dashes =>
          simp only [hshape] at h ⊢
          cases rest with
          | nil => exact Given.finish_of_verb h v'
          | cons next others => cases h
      | short letters =>
          simp only [hshape] at h
          by_cases hletter : firstLetter letters = "h"
          · rw [if_pos hletter] at h
            exact absurd h (Given.tell_ne_run _)
          · rw [if_neg hletter] at h
            cases h
      | plain =>
          simp only [hshape] at h ⊢
          rcases hpending : g.pending with _ | ⟨p, _ | value⟩
          · simp only [hpending] at h
            cases h
          · simp only [hpending] at h ⊢
            exact ih h
          · simp only [hpending] at h
            cases h
      | long name value =>
          simp only [hshape, hparameter] at h ⊢
          cases hp : v.parameter? name with
          | none =>
              simp only [hp] at h
              exact absurd h (otherName_ne_run _ _)
          | some p =>
              cases value with
              | none =>
                  simp only [hp] at h ⊢
                  obtain ⟨settled, hsettle, h⟩ := bind_eq_ok_iff.mp h
                  rw [Given.settle_of_verb hsettle v']
                  exact ih h
              | some text =>
                  simp only [hp] at h ⊢
                  obtain ⟨settled, hsettle, h⟩ := bind_eq_ok_iff.mp h
                  obtain ⟨added, hadd, h⟩ := bind_eq_ok_iff.mp h
                  rw [Given.settle_of_verb hsettle v']
                  change ∃ read : Given, _ ∧
                    (settled.add v' p text >>= fun g => parseVerb v' g rest) = _
                  rw [Given.add_of_verb hadd v']
                  exact ih h

theorem command_check_of_generate {input : Input} {out : Path}
    (h : g.command .generate = .ok (.generate input (some out))) :
    g.command .check = .ok (.check input out) := by
  rw [Given.command] at h ⊢
  cases hdescription : g.value? .description with
  | none =>
      rw [hdescription] at h
      cases h
  | some description =>
      simp only [hdescription, Except.ok.injEq, Command.generate.injEq] at h ⊢
      obtain ⟨rfl, hout⟩ := h
      simp only [hout]

theorem parseArguments_check_of_generate {words : List Bytes} {input : Input} {out : Path}
    (h : parseArguments (Utf8.ofString Verb.generate.name :: words) =
      .ok (.run (.generate input (some out)))) :
    parseArguments (Utf8.ofString Verb.check.name :: words) = .ok (.run (.check input out)) := by
  have hgenerate : Verb.ofWord? (Utf8.ofString Verb.generate.name) = some .generate := by
    decide
  have hcheck : Verb.ofWord? (Utf8.ofString Verb.check.name) = some .check := by decide
  simp only [parseArguments, hgenerate] at h
  simp only [parseArguments, hcheck]
  obtain ⟨read, hcommand, hparse⟩ :=
    parseVerb_of_verb (show Verb.generate.parameters = Verb.check.parameters from rfl) h
  rw [hparse, command_check_of_generate hcommand]
  rfl

end ServiceHarness.Command

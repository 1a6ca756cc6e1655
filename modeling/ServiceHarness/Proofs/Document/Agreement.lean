import ServiceHarness.Proofs.Document.Json.Language
import ServiceHarness.Proofs.Document.Json.Writing
import ServiceHarness.Proofs.Document.Toml.Language
import ServiceHarness.Proofs.Document.Toml.Writing

/-!
# Agreement of the formats

Which tabular documents are accepted, and that a service is read from its
tabular document as it is from its compact one in the other format.
-/

namespace ServiceHarness.Document

open ServiceHarness.Text

/-- What a document that describes a service is read as. -/
def readWithin (bytes : Bytes) (s : Service) : Except LoadError Service :=
  if bytes.length ≤ 1048576 then .ok s else .error .tooLarge

theorem parse_json_of_denotes {bytes : Bytes} {s : Service} (h : Json.Denotes bytes s) :
    parse .json bytes = readWithin bytes s := by
  rw [parse, maxBytes, readWithin]
  simp only [Json.read_ok_iff.mpr h]
  split_ifs <;> first | rfl | omega

theorem parse_toml_of_describes {doc : Toml.Tabular} {s : Service} (h : doc.Describes s) :
    parse .toml doc.bytes = readWithin doc.bytes s := by
  rw [parse, maxBytes, readWithin]
  simp only [Toml.read_ok_iff.mpr h]
  split_ifs <;> first | rfl | omega

/-- A tabular document is accepted as a service exactly if it is within the
limit and describes that service; every other one within the limit is refused
with a fault of its format.  Every service has a tabular document and a compact
one that are both read as it. -/
theorem parse_tabular_accepts_exactly :
    (∀ doc : Toml.Tabular,
      (∀ s, parse .toml doc.bytes = .ok s ↔ doc.bytes.length ≤ 1048576 ∧ doc.Describes s) ∧
      (parse .toml doc.bytes = .error .tooLarge ↔ 1048576 < doc.bytes.length) ∧
      ((∃ cause, parse .toml doc.bytes = .error (.toml cause)) ↔
        doc.bytes.length ≤ 1048576 ∧ ∀ s, ¬doc.Describes s)) ∧
    ∀ s, parse .toml (Toml.tabular s).bytes = readWithin (Toml.tabular s).bytes s ∧
      parse .json (Utf8.ofString (Json.compact s)) =
        readWithin (Utf8.ofString (Json.compact s)) s := by
  refine ⟨fun doc => ?_, fun s => ⟨parse_toml_of_describes (Toml.describes_tabular s),
    parse_json_of_denotes (Json.denotes_compact s)⟩⟩
  simp only [← Toml.read_ok_iff]
  by_cases hlarge : 1048576 < doc.bytes.length
  · have hparse : parse .toml doc.bytes = .error .tooLarge := if_pos hlarge
    simp [hparse, hlarge, Nat.not_le.mpr hlarge]
  · simp only [parse, maxBytes]
    cases Toml.read doc.bytes with
    | error fault => simp [hlarge, Nat.le_of_not_lt hlarge]
    | ok s => simp [hlarge, Nat.le_of_not_lt hlarge]

end ServiceHarness.Document

import ServiceHarness.Proofs.Storage.Resolution

/-!
# Entries put in place

A path leads to the same place whatever is in the files and whatever number was drawn
for staging files.  An entry that is put where nothing was can be taken away without a
trace, and one that is put where another was leaves nothing of that.
-/

namespace ServiceHarness.Storage

open ServiceHarness.Text

/-- An entry but for the content of a file, by which no path is led anywhere. -/
def Entry.bare : Entry → Entry
  | .file _ mode => .file [] mode
  | e => e

private theorem Entry.bare_eq_directory_iff {e : Entry} : e.bare = .directory ↔ e = .directory := by
  cases e <;> simp [bare]

/-! ## Lists of entries -/

private theorem filter_putEntry_of_none (l : Location) (entries : List (Location × Entry))
    (e : Entry) (h : entries.lookup l = none) :
    (putEntry l e entries).filter (fun entry => entry.1 ≠ l) = entries := by
  induction entries with
  | nil => simp [putEntry]
  | cons entry entries ih =>
      obtain ⟨k, f⟩ := entry
      rw [List.lookup_cons] at h
      by_cases hk : k = l
      · simp [hk] at h
      · rw [beq_eq_false_iff_ne.mpr (Ne.symm hk)] at h
        rw [putEntry, if_neg hk, List.filter_cons_of_pos (by simpa using hk), ih h]

private theorem putEntry_putEntry (l : Location) (entries : List (Location × Entry))
    (e e' : Entry) :
    putEntry l e' (putEntry l e entries) = putEntry l e' entries := by
  induction entries with
  | nil => simp [putEntry]
  | cons entry entries ih =>
      obtain ⟨k, f⟩ := entry
      rw [putEntry, putEntry]
      by_cases hk : k = l
      · rw [if_pos hk, if_pos hk, putEntry, if_pos rfl]
      · rw [if_neg hk, if_neg hk, putEntry, if_neg hk, ih]

namespace FileSystem

variable {fs fs' : FileSystem}

theorem erase_put_of_none {l : Location} (hl : l ≠ []) (hnone : fs.entry? l = none) (e : Entry) :
    (fs.put l e).erase l = fs := by
  rw [ entry?, if_neg hl] at hnone
  have herase : (fs.put l e).erase l =
      { fs with entries := (putEntry l e fs.entries).filter fun entry => entry.1 ≠ l } := rfl
  rw [herase, filter_putEntry_of_none l fs.entries e hnone]

theorem put_put (fs : FileSystem) (l : Location) (e e' : Entry) :
    (fs.put l e).put l e' = fs.put l e' := by
  simp only [put, putEntry_putEntry]

/-! ## Contents of files -/

/-- The same entries but for the contents of files. -/
structure Alike (fs fs' : FileSystem) : Prop where
  workingDirectory : fs'.workingDirectory = fs.workingDirectory
  entries : ∀ l, (fs'.entry? l).map Entry.bare = (fs.entry? l).map Entry.bare

theorem alike_put_file (fs : FileSystem) {l : Location} (hl : l ≠ []) (content content' : Bytes)
    (mode : Nat) : Alike (fs.put l (.file content mode)) (fs.put l (.file content' mode)) := by
  refine ⟨rfl, fun l' => ?_⟩
  rw [entry?_put fs hl, entry?_put fs hl]
  by_cases hsame : l' = l
  · rw [if_pos hsame, if_pos hsame]
    rfl
  · rw [if_neg hsame, if_neg hsame]

private theorem obstacle_bare (fs : FileSystem) (l : Location) :
    fs.obstacle l =
      match (fs.entry? l).map Entry.bare with
      | none => .notFound
      | some _ => .notDirectory := by
  rw [obstacle]
  cases fs.entry? l <;> rfl

private theorem walkPlain_cons_bare (fs : FileSystem) (l : Location) (name : Name)
    (rest : List Name) :
    fs.walkPlain l (name :: rest) =
      if fs.entry? l ≠ some .directory then .failed (fs.obstacle l)
      else if name = dotSegment then fs.walkPlain l rest
      else if name = dotDotSegment then fs.walkPlain l.dropLast rest
      else if maxName < name.length then .failed .nameTooLong
      else
        match (fs.entry? (l ++ [name])).map Entry.bare with
        | none => .failed .notFound
        | some (.link target) => .atLink l target rest
        | some _ => fs.walkPlain (l ++ [name]) rest := by
  rw [walkPlain]
  rcases fs.entry? (l ++ [name]) with - | e
  · rfl
  · cases e <;> rfl

namespace Alike

theorem entry?_eq_directory_iff (h : Alike fs fs') {l : Location} :
    fs'.entry? l = some .directory ↔ fs.entry? l = some .directory := by
  have hbare : ∀ found : Option Entry,
      found.map Entry.bare = some .directory ↔ found = some .directory := fun found => by
    simp only [Option.map_eq_some_iff, Entry.bare_eq_directory_iff, exists_eq_right]
  rw [← hbare, h.entries, hbare]

private theorem obstacle_eq (h : Alike fs fs') (l : Location) : fs'.obstacle l = fs.obstacle l := by
  rw [obstacle_bare, h.entries, ← obstacle_bare]

theorem walkPlain_eq (h : Alike fs fs') (l : Location) (names : List Name) :
    fs'.walkPlain l names = fs.walkPlain l names := by
  induction names generalizing l with
  | nil => rfl
  | cons name rest ih =>
      rw [walkPlain_cons_bare, walkPlain_cons_bare fs, h.entries]
      simp only [ne_eq, h.entry?_eq_directory_iff, h.obstacle_eq, ih]

theorem walk_eq (h : Alike fs fs') (links : Nat) (l : Location) (names : List Name) :
    fs'.walk links l names = fs.walk links l names := by
  fun_induction walk fs links l names with
  | case1 links l names m hplain => rw [walk, h.walkPlain_eq, hplain]
  | case2 links l names e hplain => rw [walk, h.walkPlain_eq, hplain]
  | case3 l names directory target rest hplain => rw [walk, h.walkPlain_eq, hplain]
  | case4 l names directory target rest hplain links ih =>
      rw [walk, h.walkPlain_eq, hplain]
      exact ih

theorem locate_eq (h : Alike fs fs') (p : Path) : fs'.locate p = fs.locate p := by
  simp only [locate, h.workingDirectory, h.walk_eq, ne_eq, h.entry?_eq_directory_iff,
    h.obstacle_eq]

end Alike

/-! ## Numbers that were drawn -/

def drawing (fs : FileSystem) (n : Nat) : FileSystem := { fs with drawn := n }

theorem alike_drawing (fs : FileSystem) (n : Nat) : Alike fs (fs.drawing n) :=
  ⟨rfl, fun _ => rfl⟩

theorem resolve_drawing (fs : FileSystem) (n : Nat) (p : Path) :
    (fs.drawing n).resolve p = fs.resolve p := by
  simp only [resolve, (alike_drawing fs n).walk_eq]
  rfl

theorem isDirectory_drawing (fs : FileSystem) (n : Nat) (p : Path) :
    (fs.drawing n).isDirectory p = fs.isDirectory p := by
  rw [isDirectory, resolve_drawing, isDirectory]

theorem makeDirectory_drawing (fs : FileSystem) (n : Nat) (p : Path) :
    (fs.drawing n).makeDirectory p = (fs.makeDirectory p).map (drawing · n) := by
  rw [makeDirectory, makeDirectory, (alike_drawing fs n).locate_eq]
  rcases fs.locate p with e | ⟨l, - | name⟩
  · rfl
  · rfl
  · have hentry : entry? (fs.drawing n) (l ++ [name]) = fs.entry? (l ++ [name]) := rfl
    have hdisk : (fs.drawing n).disk = fs.disk := rfl
    simp only [bind, Except.bind, hentry, hdisk]
    cases fs.entry? (l ++ [name]) with
    | some e => rfl
    | none => cases Disk.attempt fs.disk.making <;> rfl

theorem makeDirectories_drawing (fs : FileSystem) (n : Nat) (paths : List Path) :
    (fs.drawing n).makeDirectories paths =
      ((fs.makeDirectories paths).1.drawing n, (fs.makeDirectories paths).2) := by
  induction paths with
  | nil => rfl
  | cons p parents ih =>
      rw [makeDirectories, makeDirectories, makeDirectory_drawing]
      by_cases hp : p = []
      · rw [if_pos hp, if_pos hp]
      rw [if_neg hp, if_neg hp]
      rcases fs.makeDirectory p with e | made
      · cases e with
        | notFound =>
            simp only [Except.map, ih]
            rcases fs.makeDirectories parents with ⟨made, e | -⟩
            · rfl
            · simp only [makeDirectory_drawing, isDirectory_drawing]
              rcases made.makeDirectory p with e | again
              · rfl
              · rfl
        | _ => simp only [Except.map, isDirectory_drawing]
      · rfl

end FileSystem

end ServiceHarness.Storage

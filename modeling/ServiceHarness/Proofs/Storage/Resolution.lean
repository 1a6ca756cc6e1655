import Mathlib.Data.List.Basic
import ServiceHarness.Proofs.Outcome
import ServiceHarness.Storage.FileSystem

/-!
# Resolving paths

What a change of one entry does to the others, and why a path that leads
somewhere still leads there when entries are only added.
-/

namespace ServiceHarness.Storage

open ServiceHarness.Text

/-! ## Single entries -/

theorem lookup_putEntry (l : Location) (e : Entry) (entries : List (Location × Entry))
    (l' : Location) :
    (putEntry l e entries).lookup l' = if l' = l then some e else entries.lookup l' := by
  induction entries with
  | nil =>
      rw [putEntry, List.lookup_cons]
      by_cases hl : l' = l
      · simp [hl]
      · simp [beq_eq_false_iff_ne.mpr hl, hl]
  | cons entry entries ih =>
      obtain ⟨k, f⟩ := entry
      rw [putEntry]
      by_cases hk : k = l
      · rw [if_pos hk, List.lookup_cons, List.lookup_cons, hk]
        by_cases hl : l' = l
        · simp [hl]
        · simp [beq_eq_false_iff_ne.mpr hl, hl]
      · rw [if_neg hk, List.lookup_cons, List.lookup_cons, ih]
        by_cases hl : l' = k
        · subst hl
          simp [hk]
        · simp [beq_eq_false_iff_ne.mpr hl]

theorem lookup_filter_ne (l : Location) (entries : List (Location × Entry)) (l' : Location) :
    (entries.filter fun (k, _) => k ≠ l).lookup l' =
      if l' = l then none else entries.lookup l' := by
  induction entries with
  | nil => simp
  | cons entry entries ih =>
      obtain ⟨k, f⟩ := entry
      by_cases hk : k = l
      · rw [List.filter_cons_of_neg (by simpa using hk), ih, List.lookup_cons, hk]
        by_cases hl : l' = l
        · simp [hl]
        · simp [beq_eq_false_iff_ne.mpr hl, hl]
      · rw [List.filter_cons_of_pos (by simpa using hk), List.lookup_cons, List.lookup_cons, ih]
        by_cases hl : l' = k
        · subst hl
          simp [hk]
        · simp [beq_eq_false_iff_ne.mpr hl]

theorem Disk.attempt_eq_ok_iff {failure : Option FileError} :
    Disk.attempt failure = .ok () ↔ failure = none := by
  cases failure <;> simp [Disk.attempt]

namespace FileSystem

variable {fs fs' : FileSystem}

@[simp] theorem entry?_root (fs : FileSystem) : fs.entry? [] = some .directory := rfl

theorem entry?_put (fs : FileSystem) {l : Location} (hl : l ≠ []) (e : Entry) (l' : Location) :
    entry? (fs.put l e) l' = if l' = l then some e else fs.entry? l' := by
  by_cases hroot : l' = []
  · subst hroot
    rw [if_neg (Ne.symm hl), entry?_root, entry?_root]
  · simp only [ entry?, if_neg hroot, put, lookup_putEntry]

theorem entry?_erase (fs : FileSystem) {l : Location} (hl : l ≠ []) (l' : Location) :
    entry? (fs.erase l) l' = if l' = l then none else fs.entry? l' := by
  by_cases hroot : l' = []
  · subst hroot
    rw [if_neg (Ne.symm hl), entry?_root, entry?_root]
  · simp only [ entry?, if_neg hroot, erase, lookup_filter_ne]

@[simp] theorem workingDirectory_put (fs : FileSystem) (l : Location) (e : Entry) :
    (fs.put l e).workingDirectory = fs.workingDirectory := rfl

/-! ## Walks -/

/-- Going on from where a walk has stopped. -/
def Walk.andThen (fs : FileSystem) (w : Walk) (names : List Name) : Walk :=
  match w with
  | .arrived l => fs.walkPlain l names
  | .atLink directory target rest => .atLink directory target (rest ++ names)
  | .failed e => .failed e

theorem walkPlain_append (fs : FileSystem) (l : Location) (names more : List Name) :
    fs.walkPlain l (names ++ more) = (fs.walkPlain l names).andThen fs more := by
  fun_induction walkPlain fs l names with
  | case1 l => rfl
  | case2 l name rest h => rw [List.cons_append, walkPlain, if_pos h]; rfl
  | case3 l rest h ih => rw [List.cons_append, walkPlain, if_neg h, if_pos rfl, ih]
  | case4 l rest h hdot ih =>
      rw [List.cons_append, walkPlain, if_neg h, if_neg hdot, if_pos rfl, ih]
  | case5 l name rest h hdot hdots hlong =>
      rw [List.cons_append, walkPlain, if_neg h, if_neg hdot, if_neg hdots, if_pos hlong]; rfl
  | case6 l name rest h hdot hdots hlong hnone =>
      rw [List.cons_append, walkPlain, if_neg h, if_neg hdot, if_neg hdots, if_neg hlong, hnone]
      rfl
  | case7 l name rest h hdot hdots hlong target hlink =>
      rw [List.cons_append, walkPlain, if_neg h, if_neg hdot, if_neg hdots, if_neg hlong, hlink]
      rfl
  | case8 l name rest h hdot hdots hlong e hlink hentry ih =>
      rw [List.cons_append, walkPlain, if_neg h, if_neg hdot, if_neg hdots, if_neg hlong, hentry]
      cases e with
      | link target => exact absurd rfl (hlink target)
      | _ => exact ih

theorem walk_append {links : Nat} {l m r : Location} {names more : List Name}
    (h : fs.walk links l names = .ok m) (hmore : fs.walkPlain m more = .arrived r) :
    fs.walk links l (names ++ more) = .ok r := by
  fun_induction walk fs links l names with
  | case1 links l names m' hplain =>
      cases h
      rw [walk, walkPlain_append, hplain]
      simp only [Walk.andThen, hmore]
  | case2 links l names e hplain => cases h
  | case3 l names directory target rest hplain => cases h
  | case4 l names directory target rest hplain links ih =>
      rw [walk, walkPlain_append, hplain]
      simp only [Walk.andThen, ← List.append_assoc]
      exact ih h

theorem walk_append_inv {links : Nat} {l r : Location} {names more : List Name}
    (h : fs.walk links l (names ++ more) = .ok r) :
    ∃ m left, fs.walk links l names = .ok m ∧ fs.walk left m more = .ok r := by
  fun_induction walk fs links l names with
  | case1 links l names m hplain =>
      rw [walk, walkPlain_append, hplain] at h
      refine ⟨m, links, rfl, ?_⟩
      rw [walk]
      exact h
  | case2 links l names e hplain =>
      rw [walk, walkPlain_append, hplain] at h
      cases h
  | case3 l names directory target rest hplain =>
      rw [walk, walkPlain_append, hplain] at h
      cases h
  | case4 l names directory target rest hplain links ih =>
      rw [walk, walkPlain_append, hplain] at h
      simp only [Walk.andThen, ← List.append_assoc] at h
      exact ih h

theorem walk_cons_inv {links : Nat} {l r : Location} {name : Name} {rest : List Name}
    (h : fs.walk links l (name :: rest) = .ok r) :
    fs.entry? l = some .directory ∧
      (name = dotSegment ∨ name = dotDotSegment ∨
        ¬maxName < name.length ∧ fs.entry? (l ++ [name]) ≠ none) := by
  have hplain : ∀ e, fs.walkPlain l (name :: rest) ≠ .failed e := by
    intro e he
    rw [walk, he] at h
    cases h
  have hl : fs.entry? l = some .directory := by
    by_contra hl
    exact hplain _ (by rw [walkPlain, if_pos hl])
  refine ⟨hl, or_iff_not_imp_left.mpr fun hdot => or_iff_not_imp_left.mpr fun hdots => ?_⟩
  have hlength : ¬maxName < name.length := fun hlong =>
    hplain _ (by rw [walkPlain, if_neg (by simp [hl]), if_neg hdot, if_neg hdots, if_pos hlong])
  refine ⟨hlength, fun hnone => hplain .notFound ?_⟩
  rw [walkPlain, if_neg (by simp [hl]), if_neg hdot, if_neg hdots, if_neg hlength, hnone]

theorem walkPlain_of_walk {links : Nat} {l r : Location} {names : List Name}
    (hlink : ∀ directory target rest, fs.walkPlain l names ≠ .atLink directory target rest)
    (h : fs.walk links l names = .ok r) : fs.walkPlain l names = .arrived r := by
  rw [walk] at h
  cases hplain : fs.walkPlain l names with
  | arrived m =>
      rw [hplain] at h
      cases h
      rfl
  | failed e =>
      rw [hplain] at h
      cases h
  | atLink directory target rest => exact absurd hplain (hlink directory target rest)

theorem walkPlain_dots {l : Location} (hl : fs.entry? l = some .directory) {names : List Name}
    (hnames : ∀ name ∈ names, name = dotSegment) : fs.walkPlain l names = .arrived l := by
  induction names with
  | nil => rfl
  | cons name names ih =>
      rw [walkPlain, if_neg (by simp [hl]), if_pos (hnames name List.mem_cons_self)]
      exact ih fun other hother => hnames other (List.mem_cons_of_mem _ hother)

theorem walkPlain_name {l : Location} {name : Name} {e : Entry}
    (hl : fs.entry? l = some .directory) (hdot : name ≠ dotSegment) (hdots : name ≠ dotDotSegment)
    (hlength : name.length ≤ maxName) (he : fs.entry? (l ++ [name]) = some e)
    (hlink : ∀ target, e ≠ .link target) :
    fs.walkPlain l [name] = .arrived (l ++ [name]) := by
  rw [walkPlain, if_neg (by simp [hl]), if_neg hdot, if_neg hdots, if_neg (by omega), he]
  cases e with
  | link target => exact absurd rfl (hlink target)
  | _ => rfl

/-! ## Resolving and locating -/

theorem resolve_eq_ok_iff {p : Path} {l : Location} {e : Entry} :
    fs.resolve p = .ok (l, e) ↔
      checkPath p = .ok () ∧
        fs.walk maxLinks (origin fs.workingDirectory p) (Path.steps p) = .ok l ∧
        fs.entry? l = some e := by
  simp only [resolve, bind_eq_ok_iff]
  constructor
  · rintro ⟨_, hcheck, m, hwalk, hentry⟩
    cases hm : fs.entry? m with
    | none =>
        rw [hm] at hentry
        cases hentry
    | some f =>
        rw [hm] at hentry
        cases hentry
        exact ⟨hcheck, hwalk, hm⟩
  · rintro ⟨hcheck, hwalk, hentry⟩
    exact ⟨(), hcheck, l, hwalk, by rw [hentry]; rfl⟩

/-- Where an entry of that name is or would be: `before` are the other names of
the path in reverse. -/
theorem locate_eq_some_iff {p : Path} {l : Location} {name : Name} :
    fs.locate p = .ok (l, some name) ↔
      ∃ before, (Path.reversedSegments p).filter (· ≠ []) = name :: before ∧
        checkPath p = .ok () ∧
        fs.walk maxLinks (origin fs.workingDirectory p) before.reverse = .ok l ∧
        fs.entry? l = some .directory ∧ ¬(name = dotSegment ∨ name = dotDotSegment) ∧
        ¬maxName < name.length := by
  simp only [locate, bind_eq_ok_iff]
  cases hnames : (Path.reversedSegments p).filter (· ≠ []) with
  | nil =>
      constructor
      · rintro ⟨-, -, h⟩
        cases h
      · rintro ⟨before, h, -⟩
        cases h
  | cons last before =>
      simp only [bind_eq_ok_iff, unless_eq_ok_iff, not_not]
      constructor
      · rintro ⟨_, hcheck, m, hwalk, hdirectory, h⟩
        by_cases hdot : last = dotSegment ∨ last = dotDotSegment
        · rw [if_pos hdot] at h
          cases h
        · rw [if_neg hdot, unless_eq_ok_iff] at h
          obtain ⟨hlength, h⟩ := h
          cases h
          exact ⟨before, rfl, hcheck, hwalk, hdirectory, hdot, hlength⟩
      · rintro ⟨_, h, hcheck, hwalk, hdirectory, hdot, hlength⟩
        cases h
        refine ⟨(), hcheck, l, hwalk, hdirectory, ?_⟩
        rw [if_neg hdot, unless_eq_ok_iff]
        exact ⟨hlength, rfl⟩

end FileSystem

end ServiceHarness.Storage

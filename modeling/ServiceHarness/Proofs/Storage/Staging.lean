import Mathlib.Data.Nat.ModEq
import ServiceHarness.Proofs.Storage.Components
import ServiceHarness.Proofs.Storage.Writing

/-!
# Staging files

A free name for a staging file is found whenever there is one, whatever number was
drawn.  So the number decides nothing but the name, and a failure may tell that name.
-/

namespace ServiceHarness.Storage

open ServiceHarness.Text

/-! ## Names -/

private theorem stagingSuffixes_eq : stagingSuffixes = 56800235584 := rfl

theorem length_stagingName (name : Name) (n : Nat) :
    (stagingName name n).length = name.length + 12 := by
  have hmark : (Utf8.ofString ".tmp.").length = 5 := by decide
  simp only [stagingName, stagingSuffix, List.length_append, List.length_singleton, hmark,
    List.length_map, List.length_range]
  omega

private theorem stagingSuffix_mod (n : Nat) :
    stagingSuffix (n % stagingSuffixes) = stagingSuffix n := by
  refine List.map_congr_left fun i hi => congrArg suffixDigit ?_
  have hi := List.mem_range.mp hi
  have hpow : stagingSuffixes = 62 ^ (5 - i) * 62 ^ (i + 1) := by
    rw [← Nat.pow_add, show 5 - i + (i + 1) = 6 by omega]
    rfl
  change n % stagingSuffixes / 62 ^ (5 - i) % 62 = n / 62 ^ (5 - i) % 62
  rw [hpow, Nat.mod_mul_right_div_self, Nat.mod_mod_of_dvd _ (dvd_pow_self 62 i.succ_ne_zero)]

private theorem stagingName_congr {m n : Nat} (name : Name)
    (h : m % stagingSuffixes = n % stagingSuffixes) : stagingName name m = stagingName name n := by
  rw [stagingName, stagingName, ← stagingSuffix_mod m, h, stagingSuffix_mod]

private theorem zero_not_mem_stagingSuffix (n : Nat) : (0 : UInt8) ∉ stagingSuffix n := by
  have hdigit : ∀ k < 62, suffixDigit k ≠ 0 := by decide
  intro h
  obtain ⟨i, -, hi⟩ := List.mem_map.mp h
  exact hdigit _ (Nat.mod_lt _ (by decide)) hi

private theorem length_stagingPath (base : Path) (name : Name) (m n : Nat) :
    (stagingPath base name m).length = (stagingPath base name n).length := by
  rw [stagingPath, stagingPath, Path.under, Path.under]
  split <;> simp [length_stagingName]

private theorem zero_mem_stagingPath_iff {base : Path} {name : Name} {n : Nat} :
    (0 : UInt8) ∈ stagingPath base name n ↔ 0 ∈ base ∨ 0 ∈ name := by
  have hmark : (0 : UInt8) ∉ Utf8.ofString ".tmp." := by decide
  have hname : (0 : UInt8) ∈ stagingName name n ↔ 0 ∈ name := by
    simp [stagingName, hmark, zero_not_mem_stagingSuffix, dot]
  rw [stagingPath, Path.under]
  split
  · rw [List.mem_append, hname]
  · rw [List.mem_append, List.mem_cons, hname]
    simp [slash]

namespace FileSystem

variable {fs fs' made : FileSystem} {p : Path} {directory : Location} {name : Name}

theorem checkPath_stagingPath (base : Path) (name : Name) (m n : Nat) :
    checkPath (stagingPath base name m) = checkPath (stagingPath base name n) := by
  have hlength := length_stagingPath base name m n
  have hempty : stagingPath base name m = [] ↔ stagingPath base name n = [] := by
    rw [← List.length_eq_zero_iff, hlength, List.length_eq_zero_iff]
  simp only [checkPath, List.contains_iff_mem, zero_mem_stagingPath_iff, hempty, hlength]

/-! ## Free numbers -/

private theorem exists_freeNumberFrom {count start : Nat}
    (h : ∃ i < count, fs.entry? (directory ++ [stagingName name (start + i)]) = none) :
    ∃ n, fs.freeNumberFrom directory name count start = some n := by
  induction count generalizing start with
  | zero =>
      obtain ⟨i, hi, -⟩ := h
      cases hi
  | succ count ih =>
      rw [freeNumberFrom]
      by_cases hfree : fs.entry? (directory ++ [stagingName name start]) = none
      · exact ⟨start, if_pos hfree⟩
      · rw [if_neg hfree]
        obtain ⟨i, hi, hnone⟩ := h
        cases i with
        | zero => exact absurd hnone hfree
        | succ i =>
            refine ih ⟨i, Nat.lt_of_succ_lt_succ hi, ?_⟩
            rwa [Nat.succ_add_eq_add_succ]

theorem exists_freeNumber_iff :
    (∃ n, fs.freeNumber? directory name = some n) ↔
      ∃ n, fs.entry? (directory ++ [stagingName name n]) = none := by
  constructor
  · rintro ⟨n, h⟩
    exact ⟨n, free_of_freeNumberFrom h⟩
  · rintro ⟨n, hnone⟩
    have hsteps : ∃ i < stagingSuffixes,
        (fs.drawn + i) % stagingSuffixes = n % stagingSuffixes := by
      refine ⟨(n + (stagingSuffixes - fs.drawn % stagingSuffixes)) % stagingSuffixes, ?_, ?_⟩
      · exact Nat.mod_lt _ (by decide)
      · rw [stagingSuffixes_eq]
        omega
    obtain ⟨i, hi, hsame⟩ := hsteps
    exact exists_freeNumberFrom ⟨i, hi, by rwa [stagingName_congr name hsame]⟩

theorem exists_stagingPlace_iff {parent : Path} :
    (∃ source, fs.stagingPlace parent name = .ok source) ↔
      ∃ base directory, fs.fromRoot parent = .ok base ∧
        fs.stagingDirectory parent name (stagingPath base name fs.drawn) = .ok directory ∧
        (∃ n, fs.entry? (directory ++ [stagingName name n]) = none) ∧
        fs.disk.opening = none := by
  constructor
  · rintro ⟨⟨source, path⟩, h⟩
    obtain ⟨base, directory, n, hbase, hdirectory, hfree, hopening, -⟩ :=
      stagingPlace_eq_ok_iff.mp h
    exact ⟨base, directory, hbase, hdirectory, exists_freeNumber_iff.mp ⟨n, hfree⟩, hopening⟩
  · rintro ⟨base, directory, hbase, hdirectory, hnone, hopening⟩
    obtain ⟨n, hfree⟩ := exists_freeNumber_iff.mpr hnone
    exact ⟨_, stagingPlace_eq_ok_iff.mpr
      ⟨base, directory, n, hbase, hdirectory, hfree, hopening, rfl, rfl⟩⟩

/-! ## Another number -/

@[simp] theorem drawn_drawing (fs : FileSystem) (n : Nat) : (fs.drawing n).drawn = n := rfl

theorem stagingDirectory_drawing (fs : FileSystem) (n : Nat) (parent base : Path) (name : Name) :
    (fs.drawing n).stagingDirectory parent name (stagingPath base name n) =
      fs.stagingDirectory parent name (stagingPath base name fs.drawn) := by
  simp only [stagingDirectory, checkPath_stagingPath base name n fs.drawn, resolve_drawing,
    length_stagingName]

theorem prepareParent_drawing (fs : FileSystem) (n : Nat) (p : Path) :
    (fs.drawing n).prepareParent p = ((fs.prepareParent p).1.drawing n, (fs.prepareParent p).2) := by
  rw [prepareParent, prepareParent]
  cases Path.parent? p with
  | none => rfl
  | some parent =>
      by_cases hempty : parent = []
      · simp only [if_pos hempty]
      · simp only [if_neg hempty, makeDirectoryTree, makeDirectories_drawing]
        rcases fs.makeDirectories (Path.ancestors parent) with ⟨made, e | -⟩
        · rfl
        · rfl

/-- A write puts its file where it does for every text that fits and every number. -/
theorem Replaceable.drawing {target : Name} (h : fs.Replaceable p name directory target)
    (n : Nat) : (fs.drawing n).Replaceable p name directory target := by
  obtain ⟨base, l, hbase, hdirectory, hfree, hopening⟩ := exists_stagingPlace_iff.mp h.staged
  constructor
  case resolved => rw [resolve_drawing, h.resolved]
  case staged =>
    exact exists_stagingPlace_iff.mpr
      ⟨base, l, hbase, (stagingDirectory_drawing fs n _ base name).trans hdirectory, hfree, hopening⟩
  case located => rw [(alike_drawing fs n).locate_eq, h.located]
  case no_slash => exact h.no_slash
  case not_directory => exact h.not_directory
  case syncing => exact h.syncing
  case moving => exact h.moving

theorem place_drawing {content other : Bytes} {l : Location}
    (h : fs.place p content = (made, .ok l)) (hfits : fs.disk.Fits other) (n : Nat) :
    (fs.drawing n).place p other = (made.drawing n, .ok l) := by
  obtain ⟨name, hname, rfl, hdestination⟩ := place_eq_ok h
  obtain ⟨-, directory, target, hreplaceable, rfl⟩ := destination_eq_ok_iff.mp hdestination
  have hadds := adds_prepareParent fs p
  have hprepare : (fs.prepareParent p).2 = .ok (Path.directory p) := by
    rw [place, hname] at h
    rcases hfound : fs.prepareParent p with ⟨prepared, e | parent⟩
    · simp only [hfound] at h
      cases h
    · rw [prepareParent_eq_ok (congrArg Prod.snd hfound)]
  have hfits' : ((fs.prepareParent p).1.drawing n).disk.Fits other := by
    rw [show ((fs.prepareParent p).1.drawing n).disk = fs.disk from hadds.disk]
    exact hfits
  simp only [place, hname, prepareParent_drawing, hprepare,
    destination_eq_ok_iff.mpr ⟨hfits', directory, target, hreplaceable.drawing n, rfl⟩]

/-! ## Failures -/

theorem fileName?_of_outputName? (h : outputName? p = some name) :
    Path.fileName? p = some name := by
  obtain ⟨found, hfound, hsome⟩ := Option.bind_eq_some_iff.mp h
  obtain ⟨-, -, rfl⟩ := Option.map_eq_some_iff.mp hsome
  exact hfound

theorem locate_of_directory (hname : Path.fileName? p = some name)
    (hlast : (Path.steps p).getLast? = Path.fileName? p) (hlength : ¬maxName < name.length)
    (hresolve : fs.resolve (Path.directory p) = .ok (directory, .directory)) :
    p.getLast? ≠ some slash ∧
      fs.locate p = (checkPath p).map fun _ => (directory, some name) := by
  obtain ⟨-, hdot, hdots⟩ := Path.fileName?_eq_some_iff.mp hname
  rw [hname] at hlast
  have hslash : p.getLast? ≠ some slash := by
    intro hslash
    rw [Path.steps, if_pos hslash, List.getLast?_concat] at hlast
    exact hdot (Option.some.inj hlast).symm
  rw [Path.steps, if_neg hslash, List.filter_reverse, List.getLast?_reverse] at hlast
  obtain ⟨before, hnames⟩ := List.head?_eq_some_iff.mp hlast
  have hwalk := walk_before_of_resolve hnames hslash (not_or.mpr ⟨hdot, hdots⟩) hresolve
  obtain ⟨-, -, hentry⟩ := resolve_eq_ok_iff.mp hresolve
  refine ⟨hslash, ?_⟩
  rw [locate]
  cases checkPath p with
  | error e => rfl
  | ok _ =>
      simp only [hnames, hwalk, hentry, bind, Except.bind, ne_eq, not_true, if_false, hdot, hdots,
        or_self, if_neg hlength]
      rfl

private theorem persistTarget_staged (hname : Path.fileName? p = some name)
    (hlast : (Path.steps p).getLast? = Path.fileName? p) (hlength : ¬maxName < name.length)
    (hresolve : fs.resolve (Path.directory p) = .ok (directory, .directory)) {source : Location}
    (hroot : source ≠ []) (hnone : fs.entry? source = none) :
    (fs.put source (.file [] stagedMode)).persistTarget p = fs.persistTarget p := by
  have hext := extends_put hroot hnone (.file [] stagedMode)
  have hlocate := (locate_of_directory hname hlast hlength hresolve).2
  have hlocate' := (locate_of_directory hname hlast hlength (hext.resolve_eq_ok hresolve)).2
  simp only [persistTarget, moveTarget, hlocate, hlocate',
    entry?_put_file_eq_directory_iff hroot hnone]
  rfl

end FileSystem

/-- The same cause, where each error may tell the path of a staging file of its own. -/
inductive WriteError.Alike : WriteError → WriteError → Prop where
  | same (e : WriteError) : Alike e e
  | staging (cause : FileError) (base : Path) (name : Name) (m n : Nat) :
      Alike (.staging (stagingPath base name m) cause) (.staging (stagingPath base name n) cause)

namespace FileSystem

variable {fs fs' made : FileSystem} {p : Path} {directory : Location} {name : Name}

theorem stagingPlace_drawing (fs : FileSystem) (n : Nat) (parent : Path) (name : Name) :
    (∃ found found', fs.stagingPlace parent name = .ok found ∧
        (fs.drawing n).stagingPlace parent name = .ok found') ∨
      ∃ e e', WriteError.Alike e e' ∧ fs.stagingPlace parent name = .error e ∧
        (fs.drawing n).stagingPlace parent name = .error e' := by
  have hbase : (fs.drawing n).fromRoot parent = fs.fromRoot parent := rfl
  have hdirectory := stagingDirectory_drawing fs n parent
  have hopening : (fs.drawing n).disk.opening = fs.disk.opening := rfl
  rw [stagingPlace, stagingPlace, hbase, hopening]
  rcases fs.fromRoot parent with e | base
  · exact .inr ⟨_, _, .same _, rfl, rfl⟩
  simp only [mapError_ok, bind, Except.bind, drawn_drawing, hdirectory]
  rcases fs.stagingDirectory parent name (stagingPath base name fs.drawn) with e | directory
  · exact .inr ⟨_, _, .staging e base name fs.drawn n, rfl, rfl⟩
  have hfree : (∃ i, fs.freeNumber? directory name = some i) ↔
      ∃ j, (fs.drawing n).freeNumber? directory name = some j := by
    rw [exists_freeNumber_iff, exists_freeNumber_iff]
    rfl
  simp only [mapError_ok]
  rcases hi : fs.freeNumber? directory name with - | i
  · rcases hj : (fs.drawing n).freeNumber? directory name with - | j
    · exact .inr ⟨_, _, .same _, rfl, rfl⟩
    · rw [hi, hj] at hfree
      simp at hfree
  · obtain ⟨j, hj⟩ := hfree.mp ⟨i, hi⟩
    rw [hj]
    rcases fs.disk.opening with - | e
    · exact .inl ⟨_, _, rfl, rfl⟩
    · exact .inr ⟨_, _, .staging e base name i j, rfl, rfl⟩

theorem destination_of_stagingPlace {content : Bytes} {found : Location × Path}
    (hname : Path.fileName? p = some name) (hlast : (Path.steps p).getLast? = Path.fileName? p)
    (hplace : fs.stagingPlace (Path.directory p) name = .ok found)
    (hfits : fs.disk.Fits content) :
    fs.destination (Path.directory p) p name content =
      (fs.persistTarget p).mapError .plain := by
  obtain ⟨source, path⟩ := found
  obtain ⟨hroot, hnone⟩ := free_of_stagingPlace hplace
  obtain ⟨base, directory, i, -, hdirectory, -⟩ := stagingPlace_eq_ok_iff.mp hplace
  obtain ⟨-, hresolve, hlength⟩ := stagingDirectory_eq_ok_iff.mp hdirectory
  rw [length_stagingName] at hlength
  have hwrite : (fs.disk.write content).2 = .ok () := hfits
  simp only [destination, hplace, bind, Except.bind, hwrite, mapError_ok]
  rw [persistTarget_staged hname hlast (by omega) hresolve hroot hnone]

theorem destination_drawing {content other : Bytes} (hname : Path.fileName? p = some name)
    (hlast : (Path.steps p).getLast? = Path.fileName? p) (hfits : fs.disk.Fits content)
    (hfits' : fs.disk.Fits other) (n : Nat) :
    (∃ l, fs.destination (Path.directory p) p name content = .ok l ∧
        (fs.drawing n).destination (Path.directory p) p name other = .ok l) ∨
      ∃ e e', WriteError.Alike e e' ∧
        fs.destination (Path.directory p) p name content = .error e ∧
        (fs.drawing n).destination (Path.directory p) p name other = .error e' := by
  rcases stagingPlace_drawing fs n (Path.directory p) name with
    ⟨found, found', hplace, hplace'⟩ | ⟨e, e', halike, herror, herror'⟩
  · rw [destination_of_stagingPlace hname hlast hplace hfits,
      destination_of_stagingPlace hname hlast hplace' hfits',
      (alike_drawing fs n).persistTarget_eq rfl]
    rcases fs.persistTarget p with e | l
    · exact .inr ⟨_, _, .same _, rfl, rfl⟩
    · exact .inl ⟨l, rfl, rfl⟩
  · refine .inr ⟨e, e', halike, ?_, ?_⟩
    · rw [destination, herror]
      rfl
    · rw [destination, herror']
      rfl

end FileSystem

end ServiceHarness.Storage

import ServiceHarness.Proofs.Storage.Directories
import ServiceHarness.Proofs.Storage.Entries
import ServiceHarness.Proofs.Storage.Segments
import ServiceHarness.Storage.Output

/-!
# Writing a file

What a write leaves behind.  The directories on the way are made first and stay
in any case.  Then the staging file stands where nothing was, and either moves to
its target or is taken away again, whichever step fails, so that at most the target
changes.
-/

namespace ServiceHarness.Storage

open ServiceHarness.Text

/-! ## Disks -/

namespace Disk

variable {d : Disk} {content taken : Bytes}

/-- All of a content gets into a file. -/
def Fits (d : Disk) (content : Bytes) : Prop :=
  (d.write content).2 = .ok ()

instance (d : Disk) (content : Bytes) : Decidable (d.Fits content) :=
  inferInstanceAs (Decidable (_ = _))

private theorem taken_of_write (h : d.write content = (taken, .ok ())) : taken = content := by
  rw [write] at h
  cases hwriting : d.writing with
  | none =>
      rw [hwriting] at h
      cases h
      rfl
  | some fault =>
      simp only [hwriting] at h
      by_cases hroom : content.length ≤ fault.1
      · rw [if_pos hroom] at h
        cases h
        rfl
      · rw [if_neg hroom] at h
        cases h

end Disk

namespace FileSystem

variable {fs fs' : FileSystem}

/-! ## The steps of a write -/

theorem adds_prepareParent (fs : FileSystem) (p : Path) :
    AddsDirectories (Path.parents p) fs (fs.prepareParent p).1 := by
  rw [prepareParent, Path.parents]
  cases hparent : Path.parent? p with
  | none => exact .refl _ fs
  | some parent =>
      by_cases hempty : parent = []
      · simp only [if_pos hempty]
        exact .refl _ fs
      · have hadds := adds_makeDirectoryTree fs parent
        cases htree : fs.makeDirectoryTree parent with
        | mk made result =>
            rw [htree] at hadds
            cases result with
            | ok _ => simpa only [if_neg hempty, htree] using hadds
            | error e => simpa only [if_neg hempty, htree] using hadds

theorem prepareParent_eq_ok {p parent : Path} (h : (fs.prepareParent p).2 = .ok parent) :
    parent = Path.directory p := by
  rw [prepareParent] at h
  rw [Path.directory]
  cases hparent : Path.parent? p with
  | none =>
      rw [hparent] at h
      cases h
      rfl
  | some q =>
      simp only [hparent] at h ⊢
      by_cases hempty : q = []
      · rw [if_pos hempty] at h ⊢
        cases h
        rfl
      · rw [if_neg hempty] at h ⊢
        cases htree : fs.makeDirectoryTree q with
        | mk made result =>
            rw [htree] at h
            cases result with
            | ok _ =>
                cases h
                rfl
            | error e => cases h

theorem prepareParent_of_resolve {p : Path} {l : Location}
    (h : fs.resolve (Path.directory p) = .ok (l, .directory)) :
    fs.prepareParent p = (fs, .ok (Path.directory p)) := by
  rw [Path.directory] at h
  rw [prepareParent, Path.directory]
  cases hparent : Path.parent? p with
  | none => rfl
  | some parent =>
      by_cases hempty : parent = []
      · simp only [if_pos hempty]
      · simp only [hparent, if_neg hempty] at h
        obtain ⟨parents, hancestors⟩ := Path.exists_ancestors_eq_cons parent
        simp only [if_neg hempty, makeDirectoryTree, hancestors,
          makeDirectories_of_resolve parents h hempty]

/-! ## Where the target is -/

private theorem walkPlain_dots_cases (fs : FileSystem) (l : Location) {dots : List Name}
    (hdots : ∀ d ∈ dots, d = dotSegment) :
    fs.walkPlain l dots = .arrived l ∨ ∃ e, fs.walkPlain l dots = .failed e := by
  cases dots with
  | nil => exact .inl rfl
  | cons d dots =>
      by_cases hl : fs.entry? l = some .directory
      · exact .inl (walkPlain_dots hl hdots)
      · exact .inr ⟨fs.obstacle l, by rw [walkPlain, if_pos hl]⟩

theorem walkPlain_of_append_dots {l r : Location} {names dots : List Name}
    (hdots : ∀ d ∈ dots, d = dotSegment) (h : fs.walkPlain l (names ++ dots) = .arrived r) :
    fs.walkPlain l names = .arrived r := by
  rw [walkPlain_append] at h
  cases hplain : fs.walkPlain l names with
  | failed e =>
      rw [hplain] at h
      cases h
  | atLink directory target rest =>
      rw [hplain] at h
      cases h
  | arrived m =>
      rw [hplain] at h
      rcases walkPlain_dots_cases fs m hdots with hm | ⟨e, hm⟩
      · exact hm.symm.trans h
      · cases hm.symm.trans h

private theorem walk_of_append_dots {links : Nat} {l r : Location} {names dots : List Name}
    (hdots : ∀ d ∈ dots, d = dotSegment) (h : fs.walk links l (names ++ dots) = .ok r) :
    fs.walk links l names = .ok r := by
  fun_induction walk fs links l names with
  | case1 links l names m hplain =>
      rw [walk, walkPlain_append, hplain] at h
      rcases walkPlain_dots_cases fs m hdots with hm | ⟨e, hm⟩
      · simpa only [Walk.andThen, hm] using h
      · simp only [Walk.andThen, hm] at h
        cases h
  | case2 links l names e hplain =>
      rw [walk, walkPlain_append, hplain] at h
      cases h
  | case3 l names directory target rest hplain =>
      rw [walk, walkPlain_append, hplain] at h
      cases h
  | case4 l names directory target rest hplain links ih =>
      rw [walk, walkPlain_append, hplain] at h
      simp only [Walk.andThen, ← List.append_assoc] at h
      exact ih h

section Target

variable {p : Path} {directory : Location} {name : Name} {before : List Name}

theorem walk_before_of_resolve
    (hnames : (Path.reversedSegments p).filter (· ≠ []) = name :: before)
    (hslash : p.getLast? ≠ some slash) (hdots : ¬(name = dotSegment ∨ name = dotDotSegment))
    (hresolve : fs.resolve (Path.directory p) = .ok (directory, .directory)) :
    fs.walk maxLinks (origin fs.workingDirectory p) before.reverse = .ok directory := by
  obtain ⟨-, habsolute, core, dots, dots', hbefore, hsteps, hdotted, hdotted'⟩ :=
    Path.directory_steps hnames hslash hdots
  obtain ⟨-, hwalk, hentry⟩ := resolve_eq_ok_iff.mp hresolve
  rw [hsteps, origin, habsolute, ← origin] at hwalk
  rw [hbefore]
  exact walk_append (walk_of_append_dots hdotted' hwalk) (walkPlain_dots hentry hdotted)

private theorem Extends.locate_eq_directory (h : fs.Extends fs') {l : Location}
    (hlocate : fs'.locate p = .ok (l, some name)) (hslash : p.getLast? ≠ some slash)
    (hresolve : fs.resolve (Path.directory p) = .ok (directory, .directory)) :
    l = directory ∧ fs.locate p = .ok (directory, some name) := by
  obtain ⟨before, hnames, hcheck, hwalk, -, hdots, hlength⟩ := locate_eq_some_iff.mp hlocate
  have hbefore := walk_before_of_resolve hnames hslash hdots hresolve
  have hbefore' := walk_before_of_resolve hnames hslash hdots (h.resolve_eq_ok hresolve)
  obtain ⟨-, -, hentry⟩ := resolve_eq_ok_iff.mp hresolve
  rw [hwalk] at hbefore'
  cases hbefore'
  exact ⟨rfl, locate_eq_some_iff.mpr ⟨before, hnames, hcheck, hbefore, hentry, hdots, hlength⟩⟩

end Target

/-! ## The staging file -/

theorem free_of_freeNumberFrom {directory : Location} {name : Name} {count start n : Nat}
    (h : fs.freeNumberFrom directory name count start = some n) :
    fs.entry? (directory ++ [stagingName name n]) = none := by
  induction count generalizing start with
  | zero => cases h
  | succ count ih =>
      rw [freeNumberFrom] at h
      by_cases hfree : fs.entry? (directory ++ [stagingName name start]) = none
      · rw [if_pos hfree] at h
        cases h
        exact hfree
      · rw [if_neg hfree] at h
        exact ih h

theorem stagingDirectory_eq_ok_iff {parent tried : Path} {name : Name} {directory : Location} :
    fs.stagingDirectory parent name tried = .ok directory ↔
      checkPath tried = .ok () ∧ fs.resolve parent = .ok (directory, .directory) ∧
        ¬maxName < (stagingName name fs.drawn).length := by
  simp only [stagingDirectory, bind_eq_ok_iff, unless_eq_ok_iff, not_not]
  constructor
  · rintro ⟨_, hcheck, ⟨l, e⟩, hresolve, rfl, hlength, h⟩
    cases h
    exact ⟨hcheck, hresolve, hlength⟩
  · rintro ⟨hcheck, hresolve, hlength⟩
    exact ⟨(), hcheck, _, hresolve, rfl, hlength, rfl⟩

theorem stagingPlace_eq_ok_iff {parent path : Path} {name : Name} {l : Location} :
    fs.stagingPlace parent name = .ok (l, path) ↔
      ∃ base directory n, fs.fromRoot parent = .ok base ∧
        fs.stagingDirectory parent name (stagingPath base name fs.drawn) = .ok directory ∧
        fs.freeNumber? directory name = some n ∧ fs.disk.opening = none ∧
        l = directory ++ [stagingName name n] ∧ path = stagingPath base name n := by
  simp only [stagingPlace, bind_eq_ok_iff, mapError_eq_ok_iff]
  constructor
  · rintro ⟨base, hbase, directory, hdirectory, h⟩
    cases hfree : fs.freeNumber? directory name with
    | none =>
        rw [hfree] at h
        cases h
    | some n =>
        rw [hfree] at h
        obtain ⟨_, hopening, h⟩ := bind_eq_ok_iff.mp h
        cases h
        exact ⟨base, directory, n, hbase, hdirectory, hfree,
          Disk.attempt_eq_ok_iff.mp (mapError_eq_ok_iff.mp hopening), rfl, rfl⟩
  · rintro ⟨base, directory, n, hbase, hdirectory, hfree, hopening, rfl, rfl⟩
    refine ⟨base, hbase, directory, hdirectory, ?_⟩
    rw [hfree]
    exact bind_eq_ok_iff.mpr
      ⟨(), mapError_eq_ok_iff.mpr (Disk.attempt_eq_ok_iff.mpr hopening), rfl⟩

theorem free_of_stagingPlace {parent path : Path} {name : Name} {l : Location}
    (h : fs.stagingPlace parent name = .ok (l, path)) : l ≠ [] ∧ fs.entry? l = none := by
  obtain ⟨base, directory, n, -, -, hfree, -, rfl, -⟩ := stagingPlace_eq_ok_iff.mp h
  exact ⟨by simp, free_of_freeNumberFrom hfree⟩

/-! ## Where a write goes -/

def moveTarget (fs : FileSystem) (p : Path) : Except FileError Location := do
  match ← fs.locate p with
  | (_, none) => throw .busy
  | (l, some name) =>
      if p.getLast? = some slash then throw .notDirectory
      if fs.entry? (l ++ [name]) = some .directory then throw .isDirectory
      Disk.attempt fs.disk.moving
      return l ++ [name]

def persistTarget (fs : FileSystem) (p : Path) : Except FileError Location := do
  Disk.attempt fs.disk.syncing
  fs.moveTarget p

/-- Where a content is put by way of a staging file for a name. -/
def destination (fs : FileSystem) (parent p : Path) (name : Name) (content : Bytes) :
    Except WriteError Location := do
  let (source, path) ← fs.stagingPlace parent name
  (fs.disk.write content).2.mapError (.staging path)
  ((fs.put source (.file [] stagedMode)).persistTarget p).mapError .plain

/-- The file system with the parents of a path, and where a write to it puts its file. -/
def place (fs : FileSystem) (p : Path) (content : Bytes) :
    FileSystem × Except WriteError Location :=
  match outputName? p with
  | none => (fs, .error (.plain .noFileName))
  | some name =>
      match fs.prepareParent p with
      | (fs, .error e) => (fs, .error (.plain e))
      | (fs, .ok parent) => (fs, fs.destination parent p name content)

theorem moveTarget_eq_ok_iff {p : Path} {l : Location} :
    fs.moveTarget p = .ok l ↔
      ∃ directory name, fs.locate p = .ok (directory, some name) ∧ p.getLast? ≠ some slash ∧
        fs.entry? (directory ++ [name]) ≠ some .directory ∧ fs.disk.moving = none ∧
        l = directory ++ [name] := by
  simp only [moveTarget, bind_eq_ok_iff]
  constructor
  · rintro ⟨⟨directory, last⟩, hlocate, h⟩
    cases last with
    | none => cases h
    | some name =>
        obtain ⟨hslash, h⟩ := unless_eq_ok_iff.mp h
        obtain ⟨hdirectory, h⟩ := unless_eq_ok_iff.mp h
        obtain ⟨_, hmoving, h⟩ := bind_eq_ok_iff.mp h
        cases h
        exact ⟨directory, name, hlocate, hslash, hdirectory, Disk.attempt_eq_ok_iff.mp hmoving,
          rfl⟩
  · rintro ⟨directory, name, hlocate, hslash, hdirectory, hmoving, rfl⟩
    exact ⟨(directory, some name), hlocate, unless_eq_ok_iff.mpr ⟨hslash, unless_eq_ok_iff.mpr
      ⟨hdirectory, bind_eq_ok_iff.mpr ⟨(), Disk.attempt_eq_ok_iff.mpr hmoving, rfl⟩⟩⟩⟩

theorem moveFile_eq {source : Location} {e : Entry} (h : fs.entry? source = some e) (p : Path) :
    fs.moveFile source p = (fs.moveTarget p).map fun l => (fs.erase source).put l e := by
  rw [moveFile, moveTarget, h]
  rcases fs.locate p with cause | ⟨l, - | name⟩
  · rfl
  · rfl
  · simp only [bind, Except.bind]
    split
    · rfl
    split
    · rfl
    cases Disk.attempt fs.disk.moving <;> rfl

theorem persist_eq {source : Location} {e : Entry} (h : fs.entry? source = some e) (p : Path) :
    fs.persist source p = (fs.persistTarget p).map fun l => (fs.erase source).put l e := by
  rw [persist, persistTarget, moveFile_eq h]
  cases Disk.attempt fs.disk.syncing <;> rfl

theorem Alike.persistTarget_eq (h : Alike fs fs') (hdisk : fs'.disk = fs.disk) (p : Path) :
    fs'.persistTarget p = fs.persistTarget p := by
  simp only [persistTarget, moveTarget, h.locate_eq, h.entry?_eq_directory_iff, hdisk]

theorem entry?_put_file_eq_directory_iff {source l : Location} {content : Bytes} {mode : Nat}
    (hroot : source ≠ []) (hnone : fs.entry? source = none) :
    entry? (fs.put source (.file content mode)) l = some .directory ↔
      fs.entry? l = some .directory := by
  rw [entry?_put fs hroot]
  by_cases hsame : l = source
  · rw [if_pos hsame, hsame, hnone]
    simp
  · rw [if_neg hsame]

/-- A file can be staged under a name in the directory of a path, and can be moved to
the path from there. -/
structure Replaceable (fs : FileSystem) (p : Path) (name : Name) (directory : Location)
    (target : Name) : Prop where
  resolved : fs.resolve (Path.directory p) = .ok (directory, .directory)
  staged : ∃ source, fs.stagingPlace (Path.directory p) name = .ok source
  located : fs.locate p = .ok (directory, some target)
  no_slash : p.getLast? ≠ some slash
  not_directory : fs.entry? (directory ++ [target]) ≠ some .directory
  syncing : fs.disk.syncing = none
  moving : fs.disk.moving = none

/-- The staging file does not stand in the way of the file that it becomes. -/
theorem destination_eq_ok_iff {p : Path} {name : Name} {content : Bytes} {l : Location} :
    fs.destination (Path.directory p) p name content = .ok l ↔
      fs.disk.Fits content ∧
        ∃ directory target, fs.Replaceable p name directory target ∧ l = directory ++ [target] := by
  simp only [destination, persistTarget, bind_eq_ok_iff, mapError_eq_ok_iff]
  constructor
  · rintro ⟨⟨source, path⟩, hplace, _, hfits, _, hsyncing, hmove⟩
    obtain ⟨hroot, hnone⟩ := free_of_stagingPlace hplace
    have hext := extends_put hroot hnone (.file [] stagedMode)
    obtain ⟨base, directory, n, -, hdirectory, -⟩ := stagingPlace_eq_ok_iff.mp hplace
    obtain ⟨-, hresolve, -⟩ := stagingDirectory_eq_ok_iff.mp hdirectory
    obtain ⟨l', target, hlocate, hslash, hkept, hmoving, rfl⟩ := moveTarget_eq_ok_iff.mp hmove
    obtain ⟨rfl, hlocate⟩ := hext.locate_eq_directory hlocate hslash hresolve
    exact ⟨hfits, l', target, ⟨hresolve, ⟨_, hplace⟩, hlocate, hslash,
      (entry?_put_file_eq_directory_iff hroot hnone).not.mp hkept,
      Disk.attempt_eq_ok_iff.mp hsyncing, hmoving⟩, rfl⟩
  · rintro ⟨hfits, directory, target, h, rfl⟩
    obtain ⟨⟨source, path⟩, hplace⟩ := h.staged
    obtain ⟨hroot, hnone⟩ := free_of_stagingPlace hplace
    have hext := extends_put hroot hnone (.file [] stagedMode)
    exact ⟨(source, path), hplace, (), hfits, (), Disk.attempt_eq_ok_iff.mpr h.syncing,
      moveTarget_eq_ok_iff.mpr ⟨directory, target, hext.locate_eq_some h.located, h.no_slash,
        (entry?_put_file_eq_directory_iff hroot hnone).not.mpr h.not_directory, h.moving, rfl⟩⟩

/-- The content is only put where the file goes in the end. -/
theorem replaceFile_eq (fs : FileSystem) (parent p : Path) (name : Name) (content : Bytes) :
    fs.replaceFile parent p name content =
      match fs.destination parent p name content with
      | .ok l => (fs.put l (.file content stagedMode), .ok ())
      | .error e => (fs, .error e) := by
  rw [replaceFile, destination]
  rcases hplace : fs.stagingPlace parent name with e | ⟨source, path⟩
  · rfl
  · obtain ⟨hroot, hnone⟩ := free_of_stagingPlace hplace
    have herase := erase_put_of_none hroot hnone
    have hdisk : (fs.put source (.file [] stagedMode)).disk = fs.disk := rfl
    simp only [bind, Except.bind, fill, put_put, hdisk]
    rcases hwrite : fs.disk.write content with ⟨taken, e | ⟨⟨⟩⟩⟩
    · simp only [mapError_error, herase]
    · obtain rfl : taken = content := Disk.taken_of_write hwrite
      have hsource : entry? (fs.put source (.file taken stagedMode)) source =
          some (.file taken stagedMode) := by rw [entry?_put fs hroot, if_pos rfl]
      have hpersist := (alike_put_file fs hroot [] taken stagedMode).persistTarget_eq rfl p
      simp only [mapError_ok, persist_eq hsource, herase, hpersist]
      rcases (fs.put source (.file [] stagedMode)).persistTarget p with e | l
      · rfl
      · rfl

/-! ## Replacing the target -/

theorem replaceFile_eq_ok_iff {parent p : Path} {name : Name} {content : Bytes} :
    fs.replaceFile parent p name content = (fs', .ok ()) ↔
      ∃ l, fs.destination parent p name content = .ok l ∧
        fs' = fs.put l (.file content stagedMode) := by
  rw [replaceFile_eq]
  cases fs.destination parent p name content with
  | error e => simp
  | ok l => simp [eq_comm]

theorem replaceFile_eq_ok {p : Path} {name : Name} {content : Bytes}
    (h : fs.replaceFile (Path.directory p) p name content = (fs', .ok ())) :
    ∃ directory target, fs.resolve (Path.directory p) = .ok (directory, .directory) ∧
      fs.locate p = .ok (directory, some target) ∧ p.getLast? ≠ some slash ∧
      fs.entry? (directory ++ [target]) ≠ some .directory ∧
      fs'.workingDirectory = fs.workingDirectory ∧
      ∀ l, fs'.entry? l =
        if l = directory ++ [target] then some (.file content stagedMode) else fs.entry? l := by
  obtain ⟨l, hdestination, rfl⟩ := replaceFile_eq_ok_iff.mp h
  obtain ⟨-, directory, target, hreplaceable, rfl⟩ := destination_eq_ok_iff.mp hdestination
  exact ⟨directory, target, hreplaceable.resolved, hreplaceable.located, hreplaceable.no_slash,
    hreplaceable.not_directory, rfl, entry?_put fs (by simp) _⟩

/-! ## The whole write -/

theorem place_eq_ok {p : Path} {content : Bytes} {made : FileSystem} {l : Location}
    (h : fs.place p content = (made, .ok l)) :
    ∃ name, outputName? p = some name ∧ made = (fs.prepareParent p).1 ∧
      made.destination (Path.directory p) p name content = .ok l := by
  rw [place] at h
  cases hname : outputName? p with
  | none =>
      rw [hname] at h
      cases h
  | some name =>
      rcases hprepare : fs.prepareParent p with ⟨prepared, e | parent⟩
      · simp only [hname, hprepare] at h
        cases h
      · simp only [hname, hprepare] at h
        obtain ⟨rfl, hdestination⟩ := Prod.mk.inj h
        have hparent : parent = Path.directory p :=
          prepareParent_eq_ok (congrArg Prod.snd hprepare)
        exact ⟨name, rfl, rfl, hparent ▸ hdestination⟩

theorem adds_place (fs : FileSystem) (p : Path) (content : Bytes) :
    AddsDirectories (Path.parents p) fs (fs.place p content).1 := by
  have hadds := adds_prepareParent fs p
  rw [place]
  cases outputName? p with
  | none => exact .refl _ fs
  | some name =>
      rcases hprepare : fs.prepareParent p with ⟨made, e | parent⟩
      · simpa only [hprepare] using hadds
      · simpa only [hprepare] using hadds

theorem writeBytes_eq (fs : FileSystem) (p : Path) (content : Bytes) :
    fs.writeBytes p content =
      match fs.place p content with
      | (made, .ok l) => (made.put l (.file content stagedMode), .ok ())
      | (made, .error e) => (made, .error e) := by
  rw [writeBytes, place]
  cases outputName? p with
  | none => rfl
  | some name =>
      obtain ⟨made, e | parent⟩ := fs.prepareParent p
      · rfl
      · simp only [replaceFile_eq]
        cases made.destination parent p name content with
        | error e => rfl
        | ok l => rfl

theorem writeOutput_eq (fs : FileSystem) (p : Path) (text : String) :
    fs.writeOutput p text =
      match fs.place p (Utf8.ofString text) with
      | (made, .ok l) => (made.put l (.file (Utf8.ofString text) stagedMode), .ok ())
      | (made, .error e) => (made, .error (.io e.message)) := by
  rw [writeOutput, writeBytes_eq]
  obtain ⟨made, e | l⟩ := fs.place p (Utf8.ofString text)
  · rfl
  · rfl

theorem replaceFile_of_writeBytes {p : Path} {content : Bytes}
    (h : fs.writeBytes p content = (fs', .ok ())) :
    ∃ name, (fs.prepareParent p).1.replaceFile (Path.directory p) p name content =
      (fs', .ok ()) := by
  rw [writeBytes_eq] at h
  rcases hplace : fs.place p content with ⟨made, e | l⟩
  · rw [hplace] at h
    cases h
  · rw [hplace] at h
    cases h
    obtain ⟨name, -, rfl, hdestination⟩ := place_eq_ok hplace
    exact ⟨name, replaceFile_eq_ok_iff.mpr ⟨l, hdestination, rfl⟩⟩

theorem writeBytes_eq_ok {p : Path} {content : Bytes}
    (h : fs.writeBytes p content = (fs', .ok ())) :
    ∃ made name, AddsDirectories (Path.parents p) fs made ∧
      made.replaceFile (Path.directory p) p name content = (fs', .ok ()) := by
  obtain ⟨name, hreplace⟩ := replaceFile_of_writeBytes h
  exact ⟨(fs.prepareParent p).1, name, adds_prepareParent fs p, hreplace⟩

theorem writeBytes_eq_error {p : Path} {content : Bytes} {e : WriteError}
    (h : fs.writeBytes p content = (fs', .error e)) : AddsDirectories (Path.parents p) fs fs' := by
  have hadds := adds_place fs p content
  rw [writeBytes_eq] at h
  rcases hplace : fs.place p content with ⟨made, e | l⟩
  · rw [hplace] at h hadds
    cases h
    exact hadds
  · rw [hplace] at h
    cases h

end FileSystem

end ServiceHarness.Storage

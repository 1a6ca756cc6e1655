import Mathlib.Data.List.Nodup
import ServiceHarness.Document.Toml.Assembly
import ServiceHarness.Proofs.Document.Toml.Rows
import ServiceHarness.Proofs.Document.Toml.Strings

/-!
# Building tables from rows

The rows of a tabular document are put together without a fault exactly if no
table has a key twice.  The tables then hold the values of the rows, the last
one first; where the values stand in the document is left open.
-/

namespace ServiceHarness.Document.Toml

open ServiceHarness.Text

abbrev Pair := List Char × Datum

def Member.pair (m : Member Datum) : Pair := (m.key, m.content.value)

def keysOf (pairs : List Pair) : List (List Char) := pairs.map Prod.fst

/-- A table that was written out and holds these values. -/
structure Table.Shows (t : Table) (pairs : List Pair) : Prop where
  origin : t.origin = .written
  pairs : t.members.map Member.pair = pairs

theorem Table.shows_empty : Table.empty.Shows [] := ⟨rfl, rfl⟩

private theorem Table.Shows.find?_eq_none_iff {t : Table} {pairs : List Pair} (h : t.Shows pairs)
    {key : List Char} : t.find? key = none ↔ key ∉ keysOf pairs := by
  rw [Table.find?, List.find?_eq_none, ← h.pairs, keysOf, List.map_map]
  simp [Member.pair]

def Row.pair? : Row → Option Pair
  | line (.blank _ _) => none
  | line (.assign key text) => some (key.chars, .string text.value)
  | noMethods => some (methodsKey, .array [])
  | header => none

def rowsPairs (rows : List Row) : List Pair := (rows.filterMap Row.pair?).reverse

theorem rowsPairs_cons (r : Row) (rows : List Row) :
    rowsPairs (r :: rows) = rowsPairs rows ++ r.pair?.toList := by
  rw [rowsPairs, List.filterMap_cons]
  cases r.pair? <;> simp [rowsPairs]

section Assigning

variable {a : Assembly} {pairs : List Pair}

private theorem keysOf_append (pairs pairs' : List Pair) :
    keysOf (pairs ++ pairs') = keysOf pairs ++ keysOf pairs' :=
  List.map_append

private theorem assign_yields {t : Table} (h : t.Shows pairs) (key : Key)
    (content : Located Datum) :
    Yields (t.assign [] key content) (key.chars ∉ keysOf pairs)
      fun t' => t'.Shows ((key.chars, content.value) :: pairs) := by
  cases hfind : t.find? key.chars with
  | none =>
      have hassign : t.assign [] key content =
          .ok (t.insert ⟨key.chars, key.span, content⟩) := by
        simp [Table.assign, Table.descend, h.origin, Origin.written, hfind]
      rw [hassign]
      refine .ok (h.find?_eq_none_iff.mp hfind) ⟨h.origin, ?_⟩
      rw [Table.insert, List.map_cons, h.pairs]
      rfl
  | some m =>
      have hassign : t.assign [] key content = .error (key.fault .duplicateKey) := by
        simp [Table.assign, Table.descend, h.origin, Origin.written, hfind]
      rw [hassign]
      refine .error fun hfresh => ?_
      rw [h.find?_eq_none_iff.mpr hfresh] at hfind
      cases hfind

theorem decodedKey_of_decodeKey {raw : Raw} {key : List Char} (h : raw.decodeKey = .ok key) :
    raw.decodedKey = .ok ⟨key, raw.span⟩ := by
  rw [Raw.decodedKey, h]
  rfl

theorem add_assign {raw : Raw} {key : List Char} {v : Value} {span : Span} {d : Datum}
    (hkey : raw.decodeKey = .ok key) (hvalue : v.decode = .ok ⟨span, d⟩)
    (hcurrent : a.current.Shows pairs) (hnodup : (keysOf pairs).Nodup) :
    Yields ([Statement.assign ⟨[raw], v⟩].foldlM Assembly.add a)
      (keysOf ((key, d) :: pairs)).Nodup
      fun a' => ∃ current, a' = { a with current := current } ∧
        current.Shows ((key, d) :: pairs) := by
  have hadd : [Statement.assign ⟨[raw], v⟩].foldlM Assembly.add a =
      (a.current.assign [] ⟨key, raw.span⟩ ⟨span, d⟩).map
        fun current => { a with current := current } := by
    rw [List.foldlM_cons, Assembly.add, Table.assignRaw]
    simp [decodePath, decodedKey_of_decodeKey hkey, hvalue]
  rw [hadd]
  refine ((assign_yields hcurrent _ _).map fun current hshows => ⟨current, rfl, hshows⟩).congr ?_
  exact (List.nodup_cons.trans (and_iff_left hnodup)).symm

private theorem add_row {r : Row} {ss : List Statement} (hsaid : Says r ss) (hrow : r ≠ .header)
    (hcurrent : a.current.Shows pairs) (hnodup : (keysOf pairs).Nodup) :
    Yields (ss.foldlM Assembly.add a) (keysOf (r.pair?.toList ++ pairs)).Nodup
      fun a' => ∃ current, a' = { a with current := current } ∧
        current.Shows (r.pair?.toList ++ pairs) := by
  cases hsaid with
  | blank => exact .ok hnodup ⟨a.current, rfl, hcurrent⟩
  | assign key text keyStart textStart =>
      have hvalue : (Value.scalar ⟨.basic, textStart, text.chars⟩).decode =
          .ok ⟨Raw.span ⟨.basic, textStart, text.chars⟩, .string text.value⟩ := by
        rw [Value.decode, decodeScalar_basic]
        rfl
      exact add_assign (decodeKey_bare key.nonempty key.bare keyStart) hvalue hcurrent hnodup
  | noMethods keyStart span =>
      have hvalue : (Value.array span []).decode = .ok ⟨span, .array []⟩ := by
        rw [Value.decode, decodeItems]
        rfl
      exact add_assign (decodeKey_bare (by decide) methodsKey_bare keyStart) hvalue hcurrent hnodup
  | header => exact absurd rfl hrow

private theorem add_rows {rows : List Row} {ss : List Statement} (hsaid : SayAll rows ss)
    (hrows : ∀ r ∈ rows, r ≠ .header) (hcurrent : a.current.Shows pairs)
    (hnodup : (keysOf pairs).Nodup) :
    Yields (ss.foldlM Assembly.add a) (keysOf (rowsPairs rows ++ pairs)).Nodup
      fun a' => ∃ current, a' = { a with current := current } ∧
        current.Shows (rowsPairs rows ++ pairs) := by
  induction hsaid generalizing a pairs with
  | nil => exact .ok hnodup ⟨a.current, rfl, hcurrent⟩
  | @cons r rows ss us hr _ ih =>
      obtain ⟨hrow, hlater⟩ := List.forall_mem_cons.mp hrows
      rw [List.foldlM_append, rowsPairs_cons, List.append_assoc]
      refine ((add_row hr hrow hcurrent hnodup).bind ?_).congr (and_iff_right_of_imp ?_)
      · rintro hnodup' _ ⟨current, rfl, hshows⟩
        exact ih hlater hshows hnodup'
      · intro hall
        rw [keysOf_append] at hall
        exact hall.of_append_right

end Assigning

/-! ## Sections -/

/-- An item of an array of tables whose table holds these values. -/
def ItemShows (item : Located Datum) (pairs : List Pair) : Prop :=
  ∃ members, item.value = .table .written members ∧ members.map Member.pair = pairs

/-- The root table with the values above the sections and behind some sections,
the last one first.  The first section adds the array that holds them all. -/
inductive Rooted (top : List Pair) : Table → List (List Pair) → Prop
  | plain {t : Table} : t.Shows top → Rooted top t []
  | tables {m : Member Datum} {members : Members} {items : List (Located Datum)}
      {closed : List (List Pair)} :
      methodsKey ∉ keysOf top → members.map Member.pair = top →
      m.pair = (methodsKey, .tables items) → List.Forall₂ ItemShows items closed →
      closed ≠ [] → Rooted top ⟨.written, m :: members⟩ closed

private theorem Table.replace_newest {origin : Origin} {m : Member Datum} {members : Members}
    (d : Datum) (h : m.key ∉ members.map Member.key) :
    Table.replace ⟨origin, m :: members⟩ m.key d =
      ⟨origin, { m with content.value := d } :: members⟩ := by
  have hothers : ∀ n ∈ members,
      (if n.key = m.key then { n with content.value := d } else n) = n := by
    intro n hn
    refine if_neg fun hkey => h ?_
    rw [← hkey]
    exact List.mem_map_of_mem hn
  rw [Table.replace, List.map_cons, if_pos rfl, List.map_congr_left hothers, List.map_id']

section Sections

variable {a : Assembly} {top pairs : List Pair} {closed : List (List Pair)}

def NoTables (pairs : List Pair) : Prop := ∀ p ∈ pairs, ∀ items, p.2 ≠ .tables items

structure OpensSection (h : Header) : Prop where
  array : h.array = true
  path : h.path = []
  key : h.key.chars = methodsKey

private theorem addToTables_yields {h : Header} {t root : Table} (hopens : OpensSection h)
    (htop : NoTables top) (hroot : Rooted top root closed) (ht : t.Shows pairs) :
    Yields (Assembly.addToTables h t root) (methodsKey ∉ keysOf top)
      fun root' => Rooted top root' (pairs :: closed) := by
  have hitem : ItemShows ⟨h.span, .table t.origin t.members⟩ pairs :=
    ⟨t.members, by rw [ht.origin], ht.pairs⟩
  cases hroot with
  | plain hshows =>
      cases hfind : root.find? h.key.chars with
      | none =>
          have hfresh : methodsKey ∉ keysOf top := by
            rw [← hopens.key]
            exact hshows.find?_eq_none_iff.mp hfind
          simp only [Assembly.addToTables, hfind]
          refine .ok hfresh ?_
          obtain ⟨origin, members⟩ := root
          obtain rfl : origin = .written := hshows.origin
          exact .tables hfresh hshows.pairs (by rw [Member.pair, hopens.key]) (.cons hitem .nil)
            (List.cons_ne_nil _ _)
      | some m =>
          have hmem : m.pair ∈ top := by
            rw [← hshows.pairs]
            exact List.mem_map_of_mem (List.mem_of_find?_eq_some hfind)
          have hkey : m.key = h.key.chars := by simpa using List.find?_some hfind
          have htaken : ¬methodsKey ∉ keysOf top :=
            not_not.mpr (List.mem_map.mpr ⟨m.pair, hmem, hkey.trans hopens.key⟩)
          simp only [Assembly.addToTables, hfind]
          split
          · next items hvalue => exact absurd hvalue (htop _ hmem items)
          · exact .error htaken
  | @tables m members items _ hfresh hmembers hm hitems hne =>
      obtain ⟨hmkey, hvalue⟩ := Prod.mk.inj hm
      have hkey : h.key.chars = m.key := hopens.key.trans hmkey.symm
      have hothers : m.key ∉ members.map Member.key := by
        rw [← hmembers, keysOf, List.map_map, ← hmkey] at hfresh
        exact hfresh
      have hfind : Table.find? ⟨.written, m :: members⟩ m.key = some m := by
        simp [Table.find?]
      simp only [Assembly.addToTables, hkey, hfind, hvalue, Table.replace_newest _ hothers]
      exact .ok hfresh
        (.tables hfresh hmembers (by rw [Member.pair, hmkey]) (.cons hitem hitems)
          (List.cons_ne_nil _ _))

def ClosesTo (top : List Pair) (closed : List (List Pair)) (a : Assembly) : Prop :=
  ∃ root, a = ⟨root, .empty, none⟩ ∧ Rooted top root closed

private theorem close_header {a : Assembly} {h : Header} (hheader : a.header = some h)
    (hopens : OpensSection h) (htop : NoTables top) (hroot : Rooted top a.root closed)
    (hcurrent : a.current.Shows pairs) :
    Yields a.close (methodsKey ∉ keysOf top) (ClosesTo top (pairs :: closed)) := by
  have hclose : a.close = (Assembly.addToTables h a.current a.root).map
      fun root => ⟨root, .empty, none⟩ := by
    simp [Assembly.close, hheader, hopens.array, hopens.path, Table.descend]
  rw [hclose]
  exact (addToTables_yields hopens htop hroot hcurrent).map fun root h => ⟨root, rfl, h⟩

def sectionPairs (lines : List Line) : List Pair := rowsPairs (lines.map Row.line)

/-- The sections fit into a document with these values above them. -/
structure SectionsFit (top : List Pair) (sections : List (List Line)) : Prop where
  free : sections ≠ [] → methodsKey ∉ keysOf top
  distinct : ∀ lines ∈ sections, (keysOf (sectionPairs lines)).Nodup

private theorem sectionsFit_nil (top : List Pair) : SectionsFit top [] where
  free h := absurd rfl h
  distinct _ h := absurd h List.not_mem_nil

private theorem sectionsFit_cons_iff {lines : List Line} {sections : List (List Line)} :
    SectionsFit top (lines :: sections) ↔
      (keysOf (sectionPairs lines)).Nodup ∧ methodsKey ∉ keysOf top ∧
        SectionsFit top sections := by
  constructor
  · intro h
    obtain ⟨hlines, hlater⟩ := List.forall_mem_cons.mp h.distinct
    have hfree := h.free (List.cons_ne_nil _ _)
    exact ⟨hlines, hfree, fun _ => hfree, hlater⟩
  · rintro ⟨hlines, hfree, h⟩
    exact ⟨fun _ => hfree, List.forall_mem_cons.mpr ⟨hlines, h.distinct⟩⟩

private theorem add_header {ss : List Statement} (hsaid : Says .header ss) {p : Prop}
    (hclose : Yields a.close p (ClosesTo top closed)) :
    Yields (ss.foldlM Assembly.add a) p fun a' =>
      ∃ h, a'.header = some h ∧ OpensSection h ∧ a'.current = .empty ∧
        Rooted top a'.root closed := by
  cases hsaid with
  | header keyStart span =>
      have hdecoded :=
        decodedKey_of_decodeKey (decodeKey_bare (by decide) methodsKey_bare keyStart)
      have hadd : [Statement.header true span [⟨.bare, keyStart, methodsKey⟩]].foldlM
          Assembly.add a = a.close.map fun a' => { a' with
            current := .empty
            header := some ⟨true, span, [], ⟨methodsKey, Raw.span ⟨.bare, keyStart, methodsKey⟩⟩⟩ } := by
        rw [List.foldlM_cons, Assembly.add]
        cases a.close with
        | error fault => rfl
        | ok a' =>
            simp only [decodePath, hdecoded]
            rfl
      rw [hadd]
      refine hclose.map ?_
      rintro _ ⟨root, rfl, hroot⟩
      exact ⟨_, rfl, ⟨rfl, rfl, rfl⟩, rfl, hroot⟩

private theorem add_sections {sections : List (List Line)} {ss : List Statement}
    (hsaid : SayAll (sections.flatMap sectionRows) ss) (htop : NoTables top) {p : Prop}
    (hclose : Yields a.close p (ClosesTo top closed)) :
    Yields (ss.foldlM Assembly.add a >>= Assembly.close) (p ∧ SectionsFit top sections)
      (ClosesTo top ((sections.map sectionPairs).reverse ++ closed)) := by
  induction sections generalizing a closed ss p with
  | nil =>
      cases hsaid
      exact hclose.congr (and_iff_left (sectionsFit_nil top)).symm
  | cons lines sections ih =>
      cases hsaid with
      | @cons _ _ hs ss hheader hrows =>
          obtain ⟨ls, us, hlines, hlater, rfl⟩ := hrows.append_left
          simp only [List.foldlM_append, bind_assoc, List.map_cons, List.reverse_cons,
            List.append_assoc]
          have hlineRows : ∀ r ∈ lines.map Row.line, r ≠ .header := by simp
          refine ((add_header hheader hclose).bind ?_).congr
            (and_congr_right fun _ => sectionsFit_cons_iff.symm)
          rintro - a' ⟨h, hh, hopens, hcurrent, hroot⟩
          have hempty : a'.current.Shows [] := by
            rw [hcurrent]
            exact Table.shows_empty
          have hadded := add_rows hlines hlineRows hempty List.nodup_nil
          rw [List.append_nil] at hadded
          refine hadded.bind ?_
          rintro - _ ⟨current, rfl, hshows⟩
          exact ih hlater (close_header hh hopens htop hroot hshows)

end Sections

/-! ## Documents -/

def Tabular.topPairs (doc : Tabular) : List Pair := rowsPairs (doc.top.map TopLine.row)

private theorem noTables_rowsPairs (rows : List Row) : NoTables (rowsPairs rows) := by
  intro p hp items
  obtain ⟨r, -, hr⟩ := List.mem_filterMap.mp (List.mem_reverse.mp hp)
  cases r with
  | line l =>
      cases l <;> cases hr
      exact Datum.noConfusion
  | noMethods =>
      cases hr
      exact Datum.noConfusion
  | header => cases hr

theorem assemble_eq (ss : List Statement) :
    assemble ss = (ss.foldlM Assembly.add .init >>= Assembly.close).map fun a => a.root.members := by
  rw [assemble, ← bind_assoc]
  cases ss.foldlM Assembly.add .init >>= Assembly.close <;> rfl

theorem assemble_rows {doc : Tabular} {ss : List Statement} (hsaid : SayAll doc.rows ss) :
    Yields (assemble ss) ((keysOf doc.topPairs).Nodup ∧ SectionsFit doc.topPairs doc.sections)
      fun members => ∃ root : Table, members = root.members ∧
        Rooted doc.topPairs root (doc.sections.map sectionPairs).reverse := by
  obtain ⟨ts, us, htop, hsections, rfl⟩ := hsaid.append_left
  have htopRows : ∀ r ∈ doc.top.map TopLine.row, r ≠ .header := by
    intro r hr
    obtain ⟨l, -, rfl⟩ := List.mem_map.mp hr
    cases l <;> exact Row.noConfusion
  have hadded := add_rows (a := .init) htop htopRows Table.shows_empty List.nodup_nil
  rw [List.append_nil] at hadded
  have hclosed : ∀ a : Assembly,
      (∃ current, a = { Assembly.init with current := current } ∧ current.Shows doc.topPairs) →
      Yields (us.foldlM Assembly.add a >>= Assembly.close) (SectionsFit doc.topPairs doc.sections)
        (ClosesTo doc.topPairs ((doc.sections.map sectionPairs).reverse ++ [])) := by
    rintro _ ⟨current, rfl, hshows⟩
    have hclose : Yields (Assembly.close { Assembly.init with current := current }) True
        (ClosesTo doc.topPairs []) := .ok trivial ⟨current, rfl, .plain hshows⟩
    exact (add_sections hsections (noTables_rowsPairs _) hclose).congr (and_iff_right trivial)
  rw [assemble_eq, List.foldlM_append, bind_assoc]
  refine (hadded.bind fun _ => hclosed).map ?_
  rintro _ ⟨root, rfl, hroot⟩
  rw [List.append_nil] at hroot
  exact ⟨root, rfl, hroot⟩

end ServiceHarness.Document.Toml

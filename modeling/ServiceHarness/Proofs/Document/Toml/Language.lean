import ServiceHarness.Proofs.Document.Toml.Records
import ServiceHarness.Proofs.Text.Encoding

/-!
# The tabular documents that are accepted

A tabular document is read exactly if it describes a service, and then as that
service.
-/

namespace ServiceHarness.Document.Toml

open ServiceHarness.Text

/-! ## Values and lines -/

private theorem textPair_injective : Function.Injective textPair := by
  rintro ⟨_, _⟩ ⟨_, _⟩ h
  simpa [textPair, String.toList_inj] using h

def topValues (texts : List (String × String)) (n : Nat) : List Pair :=
  texts.map textPair ++ List.replicate n (methodsKey, .array [])

private theorem pair?_line (l : Line) : (Row.line l).pair? = l.pair?.map textPair := by
  cases l with
  | blank gap isGap => rfl
  | assign key text => simp [Row.pair?, Line.pair?, textPair]

theorem topPairs_perm (doc : Tabular) :
    doc.topPairs.Perm
      (topValues (doc.top.filterMap TopLine.pair?) (doc.top.countP TopLine.isNoMethods)) := by
  rw [Tabular.topPairs, topValues]
  induction doc.top with
  | nil => exact .nil
  | cons l top ih =>
      rw [List.map_cons, rowsPairs_cons]
      cases l with
      | line l =>
          have htop : (TopLine.line l).pair? = l.pair? := rfl
          rw [TopLine.row, pair?_line, List.filterMap_cons, htop,
            List.countP_cons_of_neg Bool.false_ne_true]
          cases l.pair? with
          | none => simpa using ih
          | some text => exact (List.perm_append_singleton _ _).trans (ih.cons (textPair text))
      | noMethods =>
          rw [List.filterMap_cons_none rfl, List.countP_cons_of_pos rfl, List.replicate_succ',
            ← List.append_assoc]
          exact ih.append_right [(methodsKey, .array [])]

def text? : Pair → Option (String × String)
  | (key, .string chars) => some (String.ofList key, String.ofList chars)
  | _ => none

private theorem filterMap_topValues (texts : List (String × String)) (n : Nat) :
    (topValues texts n).filterMap text? = texts := by
  have htext : text? ∘ textPair = some := by
    funext text
    simp [text?, textPair]
  rw [topValues, List.filterMap_append, List.filterMap_map, htext, List.filterMap_some]
  simp [text?]

theorem topValues_perm_iff {texts texts' : List (String × String)} {n n' : Nat} :
    (topValues texts n).Perm (topValues texts' n') ↔ texts.Perm texts' ∧ n = n' := by
  constructor
  · intro h
    have htexts : texts.Perm texts' := by
      simpa only [filterMap_topValues] using h.filterMap text?
    have hlength := h.length_eq
    simp only [topValues, List.length_append, List.length_map, List.length_replicate,
      htexts.length_eq] at hlength
    exact ⟨htexts, Nat.add_left_cancel hlength⟩
  · rintro ⟨h, rfl⟩
    exact (h.map textPair).append_right _

private theorem methodPairs_iff {m : Method} {lines : List Line} :
    MethodPairs m (sectionPairs lines) ↔ DescribesMethod m lines := by
  have hpairs : sectionPairs lines = ((lines.filterMap Line.pair?).map textPair).reverse := by
    rw [sectionPairs, rowsPairs, List.filterMap_map, List.map_filterMap]
    exact congrArg List.reverse (List.filterMap_congr fun l _ => pair?_line l)
  rw [MethodPairs, DescribesMethod, hpairs, (List.reverse_perm _).congr_left,
    List.map_perm_map_iff textPair_injective]

private theorem readAs_iff {methods : List Method} {items : List (Located Datum)}
    {sections : List (List Line)}
    (hitems : List.Forall₂ ItemShows items (sections.map sectionPairs))
    (hdistinct : ∀ lines ∈ sections, (keysOf (sectionPairs lines)).Nodup) :
    ReadAs methods items ↔ List.Forall₂ DescribesMethod methods sections := by
  induction sections generalizing methods items with
  | nil =>
      cases hitems
      rw [ReadAs, List.forall₂_nil_right_iff, List.forall₂_nil_right_iff]
  | cons lines sections ih =>
      obtain ⟨hlines, hlater⟩ := List.forall_mem_cons.mp hdistinct
      cases hitems with
      | cons hitem hitems =>
          rw [ReadAs, List.forall₂_cons_right_iff, List.forall₂_cons_right_iff]
          simp only [readMethod_ok_iff hitem hlines, methodPairs_iff, ← ih hitems hlater]

/-! ## Services -/

section Service

variable {doc : Tabular} {s : Service}

def servicePairs (s : Service) (d : Datum) : List Pair :=
  (serviceTexts s).map textPair ++ [(methodsKey, d)]

theorem readTable_service_iff {ms : Members} (hdistinct : (keysOf (ms.map Member.pair)).Nodup) :
    serviceForm.readTable (.point 0) ms = .ok (s.package, s.name, s.methods) ↔
      ∃ d, MethodsDatum s.methods d ∧ (ms.map Member.pair).Perm (servicePairs s d) := by
  rw [readTable_ok_iff formReads_service hdistinct]
  constructor
  · rintro ⟨_, _, d, rfl, rfl, hd, hperm⟩
    exact ⟨d, hd, hperm⟩
  · rintro ⟨d, hd, hperm⟩
    exact ⟨_, _, d, rfl, rfl, hd, hperm⟩

theorem describes_iff_of_no_sections (hsections : doc.sections = []) :
    (∃ d, MethodsDatum s.methods d ∧ doc.topPairs.Perm (servicePairs s d)) ↔ doc.Describes s := by
  constructor
  · rintro ⟨d, ⟨items, hitems, hread⟩, hperm⟩
    have hmem : (methodsKey, d) ∈ topValues (doc.top.filterMap TopLine.pair?)
        (doc.top.countP TopLine.isNoMethods) :=
      (hperm.symm.trans (topPairs_perm doc)).subset (by simp [servicePairs])
    have hd : d = .array [] := by
      rcases List.mem_append.mp hmem with htext | hnone
      · obtain ⟨text, -, htext⟩ := List.mem_map.mp htext
        obtain rfl : Datum.string _ = d := (Prod.mk.inj htext).2
        rcases hitems with h | h <;> cases h
      · exact (Prod.mk.inj (List.eq_of_mem_replicate hnone)).2
    subst hd
    have hmethods : s.methods = [] := by
      rcases hitems with h | h <;> cases h
      exact List.forall₂_nil_right_iff.mp hread
    obtain ⟨htexts, hcount⟩ := topValues_perm_iff.mp
      ((topPairs_perm doc).symm.trans hperm : (topValues _ _).Perm (topValues (serviceTexts s) 1))
    refine ⟨htexts, .inl ⟨hcount, hsections⟩, ?_⟩
    rw [hmethods, hsections]
    exact .nil
  · intro h
    have hcount : doc.top.countP TopLine.isNoMethods = 1 := by
      rcases h.methods with ⟨hcount, -⟩ | ⟨-, hne⟩
      · exact hcount
      · exact absurd hsections hne
    have hmethods : s.methods = [] := by
      have := h.sections
      rwa [hsections, List.forall₂_nil_right_iff] at this
    refine ⟨.array [], ⟨[], .inl rfl, ?_⟩, ?_⟩
    · rw [hmethods]
      exact .nil
    · exact (topPairs_perm doc).trans (topValues_perm_iff.mpr ⟨h.texts, hcount⟩)

theorem DescribesMethod.distinct {m : Method} {lines : List Line} (h : DescribesMethod m lines) :
    (keysOf (sectionPairs lines)).Nodup := by
  have hkeys := (methodPairs_iff.mpr h).map Prod.fst
  refine hkeys.nodup_iff.mpr ?_
  simp [methodTexts, textPair]

theorem describes_iff_of_sections {items : List (Located Datum)} (hsections : doc.sections ≠ [])
    (hfresh : methodsKey ∉ keysOf doc.topPairs)
    (hread : ReadAs s.methods items.reverse ↔
      List.Forall₂ DescribesMethod s.methods doc.sections) :
    (∃ d, MethodsDatum s.methods d ∧
      ((methodsKey, .tables items) :: doc.topPairs).Perm (servicePairs s d)) ↔
        doc.Describes s := by
  have hlast : ∀ d, ((methodsKey, d) :: (serviceTexts s).map textPair).Perm (servicePairs s d) :=
    fun d => (List.perm_append_singleton _ _).symm
  have htop : doc.topPairs.Perm ((serviceTexts s).map textPair) ↔
      (doc.top.filterMap TopLine.pair?).Perm (serviceTexts s) ∧
        doc.top.countP TopLine.isNoMethods = 0 := by
    have hnone : topValues (serviceTexts s) 0 = (serviceTexts s).map textPair := List.append_nil _
    rw [(topPairs_perm doc).congr_left, ← hnone, topValues_perm_iff]
  constructor
  · rintro ⟨d, ⟨later, hlater, hmethods⟩, hperm⟩
    have hd : d = .tables items := by
      have hmem : (methodsKey, d) ∈ (methodsKey, Datum.tables items) :: doc.topPairs :=
        hperm.symm.subset (by simp [servicePairs])
      rcases List.mem_cons.mp hmem with h | h
      · exact (Prod.mk.inj h).2
      · exact absurd (List.mem_map_of_mem h) hfresh
    subst hd
    obtain ⟨htexts, hcount⟩ := htop.mp ((hperm.trans (hlast _).symm).cons_inv)
    refine ⟨htexts, .inr ⟨hcount, hsections⟩, hread.mp ?_⟩
    rcases hlater with h | h <;> cases h
    rwa [List.reverse_reverse]
  · intro h
    have hcount : doc.top.countP TopLine.isNoMethods = 0 := by
      rcases h.methods with ⟨-, hnil⟩ | ⟨hcount, -⟩
      · exact absurd hnil hsections
      · exact hcount
    refine ⟨.tables items, ⟨items.reverse, .inr (by rw [List.reverse_reverse]), ?_⟩, ?_⟩
    · exact hread.mpr h.sections
    · exact ((htop.mpr ⟨h.texts, hcount⟩).cons _).trans (hlast _)

theorem readTable_iff_describes {root : Table} (hdistinct : (keysOf doc.topPairs).Nodup)
    (hfit : SectionsFit doc.topPairs doc.sections)
    (hroot : Rooted doc.topPairs root (doc.sections.map sectionPairs).reverse) :
    serviceForm.readTable (.point 0) root.members = .ok (s.package, s.name, s.methods) ↔
      doc.Describes s := by
  generalize hclosed : (doc.sections.map sectionPairs).reverse = closed at hroot
  cases hroot with
  | plain hshows =>
      have hsections : doc.sections = [] := by simpa using hclosed
      rw [readTable_service_iff (by rwa [hshows.pairs]), hshows.pairs,
        describes_iff_of_no_sections hsections]
  | @tables m members items _ hfresh hmembers hm hitems hne =>
      have hsections : doc.sections ≠ [] := by
        rintro hnil
        rw [hnil] at hclosed
        exact hne hclosed.symm
      have hpairs : (m :: members).map Member.pair = (methodsKey, .tables items) :: doc.topPairs := by
        rw [List.map_cons, hm, hmembers]
      have hitems' : List.Forall₂ ItemShows items.reverse (doc.sections.map sectionPairs) := by
        rw [← List.forall₂_reverse_iff, List.reverse_reverse, hclosed]
        exact hitems
      rw [readTable_service_iff (by
        rw [hpairs]
        exact List.nodup_cons.mpr ⟨hfresh, hdistinct⟩), hpairs]
      exact describes_iff_of_sections hsections hfresh (readAs_iff hitems' hfit.distinct)

theorem Tabular.Describes.keys_perm (h : doc.Describes s) :
    (keysOf doc.topPairs).Perm (["package".toList, "service".toList] ++
      List.replicate (doc.top.countP TopLine.isNoMethods) methodsKey) := by
  have hvalues : (topValues (doc.top.filterMap TopLine.pair?) _).Perm
      (topValues (serviceTexts s) (doc.top.countP TopLine.isNoMethods)) :=
    topValues_perm_iff.mpr ⟨h.texts, rfl⟩
  have hkeys := ((topPairs_perm doc).trans hvalues).map Prod.fst
  simpa [topValues, serviceTexts, textPair, keysOf] using hkeys

theorem Tabular.Describes.distinct (h : doc.Describes s) : (keysOf doc.topPairs).Nodup := by
  refine h.keys_perm.nodup_iff.mpr ?_
  rcases h.methods with ⟨hcount, -⟩ | ⟨hcount, -⟩ <;> rw [hcount] <;> decide

theorem Tabular.Describes.fits (h : doc.Describes s) :
    SectionsFit doc.topPairs doc.sections where
  free hne := by
    have hcount : doc.top.countP TopLine.isNoMethods = 0 := h.methods.resolve_left (hne ·.2) |>.1
    rw [h.keys_perm.mem_iff, hcount]
    decide
  distinct := by
    have hsections := h.sections
    generalize doc.sections = sections, s.methods = methods at hsections
    induction hsections with
    | nil => simp
    | cons hm _ ih => exact List.forall_mem_cons.mpr ⟨hm.distinct, ih⟩

end Service

/-! ## Documents -/

private theorem Row.chars_begin (r : Row) : ∃ c rest, r.chars = c :: rest ∧ c ≠ '\uFEFF' := by
  cases r with
  | line l =>
      cases l with
      | blank gap isGap =>
          cases gap with
          | nil => exact ⟨_, _, rfl, by decide⟩
          | cons c gap =>
              refine ⟨_, _, rfl, ?_⟩
              rcases (List.forall_mem_cons.mp isGap).1 with rfl | rfl <;> decide
      | assign key text =>
          obtain ⟨c, rest, hkey⟩ := List.exists_cons_of_ne_nil key.nonempty
          have hbare : IsBare c := key.bare c (by simp [hkey])
          refine ⟨c, rest ++ " = ".toList ++ text.chars ++ ['\n'], ?_, ?_⟩
          · rw [← chars_line, Line.chars, hkey]
            rfl
          · rintro rfl
            simp [IsBare] at hbare
  | noMethods => exact ⟨_, _, rfl, by decide⟩
  | header => exact ⟨_, _, rfl, by decide⟩

private theorem dropMark_chars (doc : Tabular) : dropMark doc.chars = (0, doc.chars) := by
  rw [chars_eq, wordsText_rowsWords]
  cases doc.rows with
  | nil => rfl
  | cons r rows =>
      obtain ⟨c, rest, hr, hc⟩ := r.chars_begin
      rw [List.flatMap_cons, hr, List.cons_append, dropMark]
      simpa using hc

theorem readChars_ok_iff {doc : Tabular} {s : Service} :
    readChars doc.chars = .ok s ↔ doc.Describes s := by
  obtain ⟨ss, hsaid, hstatements⟩ := statements_rows doc.rows
  have hread : readChars doc.chars = (assemble ss >>= fun members =>
      serviceForm.readTable (.point 0) members >>= fun v => pure ⟨v.1, v.2.1, v.2.2⟩) := by
    rw [← chars_eq] at hstatements
    rw [readChars, dropMark_chars]
    simp only [hstatements]
    rfl
  rw [hread]
  refine (assemble_rows hsaid).bind_ok_iff (fun h => ⟨h.distinct, h.fits⟩) ?_
  rintro ⟨hdistinct, hfit⟩ _ ⟨root, rfl, hroot⟩
  rw [← readTable_iff_describes hdistinct hfit hroot, bind_pure_eq_ok_iff]
  constructor
  · rintro ⟨v, hv, rfl⟩
    exact hv
  · exact fun hv => ⟨_, hv, rfl⟩

theorem read_ok_iff {doc : Tabular} {s : Service} :
    read doc.bytes = .ok s ↔ doc.Describes s := by
  rw [← readChars_ok_iff, read, Tabular.bytes, Utf8.decode_encode]
  cases hread : readChars doc.chars with
  | error fault => simp [hread]
  | ok s' => simp [hread]

end ServiceHarness.Document.Toml

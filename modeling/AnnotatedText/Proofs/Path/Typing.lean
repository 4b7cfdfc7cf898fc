import AnnotatedText.Proofs.Path.Binding

/-!
# The typing of paths

Whether references can be resolved is a matter of types. From the type a path starts from, each
reference leads to the type that the range of its feature mentions: itself, or in the elements of an
array if the reference has an index. Behind anything else no type is known, and then none is known
up to the end (`Reference.next?`, `typeBehind?`).

A reference to the covered text has no index and nothing behind it, and a reference on a known type
is to the covered text or to a feature that the type sees. References of which this is true are
`WellTyped`, and they are those that have a typing: segments related to them by `Typed`. Resolution
computes this relation. Where it fails there is a first segment that is `Refused`, and what stands
in front of it has a typing.

## Main results

* `FeaturePath.resolveFrom_eq_ok_iff`: resolution computes the typing.
* `exists_typed_iff`: which references have one.
* `Typed.exists_shape`: features, then segments to be bound in the walk, then the covered text.
* `FeaturePath.exists_refused_of_error`: where resolution fails, and why.
* `FeaturePath.resolve_by_typing`: what is resolved, what to, and what is refused.
-/

namespace AnnotatedText

variable {ts : TypeSystem} {type? : Option TypeId} {r : Reference} {s : Segment}

/-! ### Well-typed references -/

/-- The type that the values of a range lead to, all of them or the one at an index. -/
def Range.target? : Range → Option Nat → Option TypeId
  | reference t, _ => some t
  | array (.reference t), some _ => some t
  | array (.reference _), none | array (.scalar _), _ | scalar _, _ => none

namespace Reference

/-- The feature that a reference names, if the type is known and sees one of the name. -/
def feature? (ts : TypeSystem) (type? : Option TypeId) (r : Reference) : Option Feature :=
  type?.bind (ts.featureNamed? · r.name)

/-- The type that is known behind a reference. -/
def next? (ts : TypeSystem) (type? : Option TypeId) (r : Reference) : Option TypeId :=
  (r.feature? ts type?).bind (·.range.target? r.index?)

/-- A reference **is to the covered text** if it has its name, or the short one on a type that sees
no feature of that name. -/
def IsText (ts : TypeSystem) (type? : Option TypeId) (r : Reference) : Prop :=
  r.name = coveredTextName ∨
    r.name = coveredTextShortName ∧ ∃ t ∈ type?, ts.featureNamed? t coveredTextShortName = none

/-- A reference **is unseen** on a type if it is not to the covered text and the type sees no
feature of its name. -/
structure IsUnseen (ts : TypeSystem) (t : TypeId) (r : Reference) : Prop where
  ne_coveredText : r.name ≠ coveredTextName
  ne_shortName : r.name ≠ coveredTextShortName
  featureNamed?_eq_none : ts.featureNamed? t r.name = none

/-- What is **asked of a reference** where it stands. -/
structure Fits (ts : TypeSystem) (type? : Option TypeId) (r : Reference)
    (behind : List Reference) : Prop where
  /-- The covered text has no index and nothing behind it. -/
  ends_of_isText : r.IsText ts type? → r.index? = none ∧ behind = []
  /-- A known type sees what is not the covered text. -/
  seen_of_known : ∀ t ∈ type?, r.name = coveredTextName ∨ r.name = coveredTextShortName ∨
    ∃ f, ts.featureNamed? t r.name = some f

end Reference

/-- The type that is known behind references, from a type on. -/
def typeBehind? (ts : TypeSystem) (type? : Option TypeId) (refs : List Reference) : Option TypeId :=
  refs.foldl (fun type? r => r.next? ts type?) type?

/-- References are **well typed** from a type on if each of them fits where it stands. -/
def WellTyped (ts : TypeSystem) (type? : Option TypeId) (refs : List Reference) : Prop :=
  ∀ before r behind, refs = before ++ r :: behind → r.Fits ts (typeBehind? ts type? before) behind

theorem wellTyped_nil : WellTyped ts type? [] := fun before r behind h => by simp at h

/-- References are well typed if the first fits and the others are behind it. -/
theorem wellTyped_cons_iff {refs : List Reference} :
    WellTyped ts type? (r :: refs) ↔
      r.Fits ts type? refs ∧ WellTyped ts (r.next? ts type?) refs := by
  constructor
  · intro h
    exact ⟨h [] r refs rfl, fun before r' behind hrefs => h (r :: before) r' behind (hrefs ▸ rfl)⟩
  · rintro ⟨hr, hrefs⟩ before r' behind h
    cases before with
    | nil =>
        obtain ⟨rfl, rfl⟩ := List.cons.inj h
        exact hr
    | cons first before =>
        obtain ⟨rfl, hbehind⟩ := List.cons.inj h
        exact hrefs before r' behind hbehind

/-! ### Segments for references -/

/-- The segment that **names** what a reference names, if that is not the covered text: the feature
that a known type sees, or what is to be bound in the walk. -/
inductive Segment.Names (ts : TypeSystem) : Option TypeId → Reference → Segment → Prop
  | named {t : TypeId} {r : Reference} {f : Feature} (hname : r.name ≠ coveredTextName)
      (hf : ts.featureNamed? t r.name = some f) (hindex : r.index? = none) :
      Names ts (some t) r (.named r.name f.id)
  | indexed {t : TypeId} {r : Reference} {f : Feature} {i : Nat} (hname : r.name ≠ coveredTextName)
      (hf : ts.featureNamed? t r.name = some f) (hindex : r.index? = some i) :
      Names ts (some t) r (.indexed r.name f.id i)
  | unbound {r : Reference} (hname : r.name ≠ coveredTextName) :
      Names ts none r (.unbound r.name r.index?)

/-- Segments are a **typing** of references from a type on. Nothing follows the covered text. -/
inductive Typed (ts : TypeSystem) : Option TypeId → List Reference → List Segment → Prop
  | nil (type? : Option TypeId) : Typed ts type? [] []
  | text {type? : Option TypeId} {r : Reference} (h : r.IsText ts type?)
      (hindex : r.index? = none) : Typed ts type? [r] [.coveredText]
  | cons {type? : Option TypeId} {r : Reference} {s : Segment} {refs : List Reference}
      {segments : List Segment} (h : s.Names ts type? r)
      (hrest : Typed ts (r.next? ts type?) refs segments) :
      Typed ts type? (r :: refs) (s :: segments)

namespace Segment

/-- A segment that a reference names is no covered text. -/
theorem Names.ne_coveredText (h : s.Names ts type? r) : s ≠ .coveredText := by
  cases h <;> exact Segment.noConfusion

/-- A reference that names a segment is not one to covered text. -/
theorem Names.not_isText (h : s.Names ts type? r) : ¬ r.IsText ts type? := by
  rintro (htext | ⟨hshort, t, ht, hnone⟩)
  · cases h with
    | named hname | indexed hname | unbound hname => exact hname htext
  · cases h with
    | named hname hf | indexed hname hf =>
        obtain rfl : _ = t := Option.some.inj ht
        rw [hshort, hnone] at hf
        exact nomatch hf
    | unbound => exact nomatch ht

/-- A segment keeps the name and the index of its reference. -/
theorem Names.name_eq_and_index_eq (h : s.Names ts type? r) :
    s.name = r.name ∧ s.index? = r.index? := by
  cases h with
  | named _ _ hindex | indexed _ _ hindex => exact ⟨rfl, hindex.symm⟩
  | unbound => exact ⟨rfl, rfl⟩

/-- The segment of a reference whose name a known type sees. -/
theorem Names.ofFeature {t : TypeId} {f : Feature} (hname : r.name ≠ coveredTextName)
    (hf : ts.featureNamed? t r.name = some f) : (ofFeature r f).Names ts (some t) r := by
  rw [Segment.ofFeature]
  cases hindex : r.index? with
  | none => exact .named hname hf hindex
  | some i => exact .indexed hname hf hindex

/-- **What a reference can be to**: to the covered text, to what a segment names, or to a feature
that the known type does not see. -/
theorem isText_or_names_or_unseen (ts : TypeSystem) (type? : Option TypeId) (r : Reference) :
    r.IsText ts type? ∨ (∃ s : Segment, s.Names ts type? r) ∨
      ∃ t, type? = some t ∧ r.IsUnseen ts t := by
  by_cases hname : r.name = coveredTextName
  · exact .inl (.inl hname)
  · cases type? with
    | none => exact .inr (.inl ⟨_, .unbound hname⟩)
    | some t =>
        cases hf : ts.featureNamed? t r.name with
        | some f => exact .inr (.inl ⟨_, .ofFeature hname hf⟩)
        | none =>
            by_cases hshort : r.name = coveredTextShortName
            · exact .inl (.inr ⟨hshort, t, rfl, hshort ▸ hf⟩)
            · exact .inr (.inr ⟨t, rfl, hname, hshort, hf⟩)

/-- **Which references have a segment** that names what they name. -/
theorem exists_names_iff :
    (∃ s : Segment, s.Names ts type? r) ↔ ¬ r.IsText ts type? ∧
      ∀ t ∈ type?, r.name = coveredTextName ∨ r.name = coveredTextShortName ∨
        ∃ f, ts.featureNamed? t r.name = some f := by
  constructor
  · rintro ⟨s, h⟩
    refine ⟨h.not_isText, fun t ht => ?_⟩
    cases h with
    | named hname hf | indexed hname hf =>
        obtain rfl : _ = t := Option.some.inj ht
        exact .inr (.inr ⟨_, hf⟩)
    | unbound => exact nomatch ht
  · rintro ⟨hnot, hseen⟩
    obtain htext | hnames | ⟨t, rfl, hname, hshort, hf⟩ := isText_or_names_or_unseen ts type? r
    · exact absurd htext hnot
    · exact hnames
    · obtain h | h | ⟨f, h⟩ := hseen t rfl
      · exact absurd h hname
      · exact absurd h hshort
      · exact nomatch hf.symm.trans h

/-! ### One segment -/

variable {w : String}

/-- A reference to covered text is accepted if and only if it has no index. -/
theorem ofText_eq_ok_iff : ofText w r = .ok s ↔ s = .coveredText ∧ r.index? = none := by
  refine ⟨fun h => (ofText_eq_ok h).symm, ?_⟩
  rintro ⟨rfl, hindex⟩
  rw [ofText, hindex]

/-- A reference to covered text is bound as such. -/
theorem bind_of_isText (h : r.IsText ts type?) : bind ts (.ofStart type?) w r = ofText w r := by
  by_cases hname : r.name = coveredTextName
  · cases type? <;> simp [bind, Cursor.ofStart, hname]
  · obtain htext | ⟨hshort, t, rfl, hf⟩ := h
    · exact absurd htext hname
    · rw [hshort] at hname
      simp [bind, Cursor.ofStart, onType, hshort, hname, hf]

/-- A reference to a feature that the type does not have is refused. -/
theorem bind_of_isUnseen {t : TypeId} (h : r.IsUnseen ts t) :
    bind ts (.ofStart (some t)) w r = .error ⟨w, some (ts.typeName t), .inaccessibleFeature⟩ := by
  simp [bind, Cursor.ofStart, onType, h.ne_coveredText, h.ne_shortName, h.featureNamed?_eq_none]

/-- A reference is bound to the segment that it names. -/
theorem Names.bind_eq (h : s.Names ts type? r) : bind ts (.ofStart type?) w r = .ok s := by
  cases h with
  | named hname hf hindex | indexed hname hf hindex =>
      simp [bind, Cursor.ofStart, onType, hname, hf, Segment.ofFeature, hindex]
  | unbound hname => simp [bind, Cursor.ofStart, hname]

/-- **What a reference is bound to** where no covered text is reached yet. -/
theorem bind_eq_ok_iff :
    bind ts (.ofStart type?) w r = .ok s ↔
      s.Names ts type? r ∨ s = .coveredText ∧ r.IsText ts type? ∧ r.index? = none := by
  constructor
  · intro h
    obtain htext | ⟨s', hnames⟩ | ⟨t, rfl, hunseen⟩ := isText_or_names_or_unseen ts type? r
    · obtain ⟨hs, hindex⟩ := ofText_eq_ok_iff.mp ((bind_of_isText htext).symm.trans h)
      exact .inr ⟨hs, htext, hindex⟩
    · obtain rfl := Except.ok.inj (hnames.bind_eq.symm.trans h)
      exact .inl hnames
    · exact nomatch (bind_of_isUnseen hunseen).symm.trans h
  · rintro (hnames | ⟨hs, htext, hindex⟩)
    · exact hnames.bind_eq
    · rw [bind_of_isText htext]
      exact ofText_eq_ok_iff.mpr ⟨hs, hindex⟩

/-- **What is known behind a segment** is what is known behind its reference. -/
theorem Names.behind_eq (hts : ts.Consistent) (h : s.Names ts type? r) :
    Cursor.behind ts s = .ofStart (r.next? ts type?) := by
  have hbehind (range : Range) (index? : Option Nat) :
      Cursor.behindRange range index? = .ofStart (range.target? index?) := by
    cases range with
    | scalar kind => rfl
    | reference t => rfl
    | array element => cases element <;> cases index? <;> rfl
  cases h with
  | named hname hf hindex | indexed hname hf hindex =>
      have hplace := hts.feature?_id (TypeSystem.featureNamed?_eq_some hf).1
      simp [Cursor.behind, Cursor.behindFeature, hplace, hbehind, Reference.next?,
        Reference.feature?, hf, hindex]
  | unbound => rfl

end Segment

/-! ### Paths -/

/-- Each segment keeps the index of its reference, and the name if it is not the covered text. -/
theorem Typed.forall₂_name_index {refs : List Reference} {segments : List Segment}
    (h : Typed ts type? refs segments) :
    List.Forall₂ (fun r s => (s.name = r.name ∨ s = .coveredText) ∧ s.index? = r.index?)
      refs segments := by
  induction h with
  | nil => exact .nil
  | text _ hindex => exact .cons ⟨.inr rfl, hindex.symm⟩ .nil
  | cons hnames _ ih =>
      obtain ⟨hname, hindex⟩ := hnames.name_eq_and_index_eq
      exact .cons ⟨.inl hname, hindex⟩ ih

/-- Once no type is known, none is known behind. -/
theorem typeBehind?_none (ts : TypeSystem) (refs : List Reference) :
    typeBehind? ts none refs = none := by
  induction refs with
  | nil => rfl
  | cons r rest ih => exact ih

/-- Segments **in the order** in which a typing has them: those that are bound to features, those
that are bound in the walk, and at the end the covered text. -/
structure IsInOrder (ts : TypeSystem) (type? : Option TypeId) (refs : List Reference)
    (bound late text : List Segment) : Prop where
  bound_to_feature : ∀ s ∈ bound, s.feature?.isSome
  isUnbound_of_late : ∀ s ∈ late, s.isUnbound
  /-- No type is known where what is bound in the walk begins, nor behind. -/
  unknown_of_late : late ≠ [] → ∀ n ≥ bound.length, typeBehind? ts type? (refs.take n) = none
  at_most_one_text : text = [] ∨ text = [.coveredText]
  eq_nil_of_unknown : type? = none → bound = []

/-- **The shape of a typing.** -/
theorem Typed.exists_shape {refs : List Reference} {segments : List Segment}
    (h : Typed ts type? refs segments) :
    ∃ bound late text, segments = bound ++ late ++ text ∧
      IsInOrder ts type? refs bound late text := by
  induction h with
  | nil => exact ⟨[], [], [], rfl, by simp, by simp, by simp, .inl rfl, fun _ => rfl⟩
  | text =>
      exact ⟨[], [], [.coveredText], rfl, by simp, by simp, by simp, .inr rfl, fun _ => rfl⟩
  | @cons type? r s refs segments hnames _ ih =>
      obtain ⟨bound, late, text, rfl, hshape⟩ := ih
      cases hnames with
      | named | indexed =>
          refine ⟨_ :: bound, late, text, rfl, ?_, hshape.isUnbound_of_late, ?_,
            hshape.at_most_one_text, fun h => nomatch h⟩
          · exact List.forall_mem_cons.mpr ⟨rfl, hshape.bound_to_feature⟩
          · intro hlate n hn
            obtain ⟨m, rfl⟩ := Nat.exists_eq_add_of_le' (Nat.le_of_add_left_le hn)
            exact hshape.unknown_of_late hlate m (Nat.le_of_add_le_add_right hn)
      | unbound =>
          obtain rfl := hshape.eq_nil_of_unknown rfl
          refine ⟨[], _ :: late, text, rfl, hshape.bound_to_feature, ?_,
            fun _ n _ => typeBehind?_none ts _, hshape.at_most_one_text, fun _ => rfl⟩
          exact List.forall_mem_cons.mpr ⟨rfl, hshape.isUnbound_of_late⟩

/-- **Which references have a typing**: those that are well typed. -/
theorem exists_typed_iff {refs : List Reference} :
    (∃ segments, Typed ts type? refs segments) ↔ WellTyped ts type? refs := by
  induction refs generalizing type? with
  | nil => exact ⟨fun _ => wellTyped_nil, fun _ => ⟨[], .nil type?⟩⟩
  | cons r refs ih =>
      rw [wellTyped_cons_iff]
      constructor
      · rintro ⟨segments, h⟩
        cases h with
        | text htext hindex =>
            refine ⟨⟨fun _ => ⟨hindex, rfl⟩, fun t ht => ?_⟩, wellTyped_nil⟩
            obtain hname | ⟨hshort, -⟩ := htext
            · exact .inl hname
            · exact .inr (.inl hshort)
        | @cons _ _ s _ segments hnames hrest =>
            obtain ⟨hnot, hseen⟩ := Segment.exists_names_iff.mp ⟨s, hnames⟩
            exact ⟨⟨fun htext => absurd htext hnot, hseen⟩, ih.mp ⟨segments, hrest⟩⟩
      · rintro ⟨hfits, hrest⟩
        by_cases htext : r.IsText ts type?
        · obtain ⟨hindex, rfl⟩ := hfits.ends_of_isText htext
          exact ⟨_, .text htext hindex⟩
        · obtain ⟨s, hnames⟩ := Segment.exists_names_iff.mpr ⟨htext, hfits.seen_of_known⟩
          obtain ⟨segments, hsegments⟩ := ih.mpr hrest
          exact ⟨_, .cons hnames hsegments⟩

namespace FeaturePath

/-- **Resolution computes the typing** of what the written segments are read as. -/
theorem resolveFrom_eq_ok_iff (hts : ts.Consistent) {raw : List String} {segments : List Segment} :
    resolveFrom ts (.ofStart type?) raw = .ok segments ↔
      ∃ refs, List.Forall₂ (Reference.read · = .ok ·) raw refs ∧ Typed ts type? refs segments := by
  induction raw generalizing type? segments with
  | nil =>
      constructor
      · intro h
        obtain rfl : [] = segments := by simpa [resolveFrom] using h
        exact ⟨[], .nil, .nil type?⟩
      · rintro ⟨refs, hread, htyped⟩
        cases hread
        cases htyped
        rfl
  | cons w rest ih =>
      rw [resolveFrom_cons_eq_ok_iff]
      constructor
      · rintro ⟨s, tail, rfl, hs, htail⟩
        obtain ⟨r, hr, hbind⟩ := Segment.resolve_eq_ok_iff.mp hs
        obtain hnames | ⟨rfl, htext, hindex⟩ := Segment.bind_eq_ok_iff.mp hbind
        · -- the cursor behind the segment is the type behind the reference, which the induction
          -- leaves free
          rw [hnames.behind_eq hts] at htail
          obtain ⟨refs, hread, htyped⟩ := ih.mp htail
          exact ⟨r :: refs, .cons hr hread, .cons hnames htyped⟩
        · obtain rfl := eq_nil_of_resolveFrom_text htail
          obtain rfl : [] = tail := by simpa [resolveFrom] using htail
          exact ⟨[r], .cons hr .nil, .text htext hindex⟩
      · rintro ⟨_, hread, htyped⟩
        cases hread with
        | @cons _ r _ refs hr hread =>
            cases htyped with
            | text htext hindex =>
                cases hread
                have hbind : Segment.bind ts (.ofStart type?) w r = .ok .coveredText :=
                  Segment.bind_eq_ok_iff.mpr (.inr ⟨rfl, htext, hindex⟩)
                exact ⟨_, [], rfl, Segment.resolve_eq_ok_iff.mpr ⟨r, hr, hbind⟩, rfl⟩
            | cons hnames htyped =>
                refine ⟨_, _, rfl, Segment.resolve_eq_ok_iff.mpr ⟨r, hr, hnames.bind_eq⟩, ?_⟩
                rw [hnames.behind_eq hts]
                exact ih.mpr ⟨refs, hread, htyped⟩

end FeaturePath

/-! ### What is refused -/

/-- A written segment **is refused** behind segments where the type may be known: it cannot be read,
or it stands behind the covered text, or is to it with an index, or is unseen. -/
inductive Segment.Refused (ts : TypeSystem) (type? : Option TypeId) (before : List Segment)
    (w : String) : ResolutionError → Prop
  | unread {e : ResolutionError} (h : Reference.read w = .error e) : Refused ts type? before w e
  | behindText {r : Reference} (h : Reference.read w = .ok r)
      (htext : before.getLast? = some .coveredText) :
      Refused ts type? before w ⟨w, none, .textHasNoFeatures⟩
  | textIndexed {r : Reference} {i : Nat} (h : Reference.read w = .ok r)
      (hbefore : before.getLast? ≠ some .coveredText) (htext : r.IsText ts type?)
      (hindex : r.index? = some i) : Refused ts type? before w ⟨w, none, .textIndexed⟩
  | inaccessible {r : Reference} {t : TypeId} (h : Reference.read w = .ok r)
      (hbefore : before.getLast? ≠ some .coveredText) (ht : type? = some t)
      (hunseen : r.IsUnseen ts t) :
      Refused ts type? before w ⟨w, some (ts.typeName t), .inaccessibleFeature⟩

namespace Segment

variable {w : String} {e : ResolutionError} {before : List Segment}

/-- What is refused behind segments is refused with another one in front of them. -/
theorem Refused.cons (h : Refused ts type? before w e) (hs : s ≠ .coveredText) :
    Refused ts type? (s :: before) w e := by
  have hlast : (s :: before).getLast? = some .coveredText ↔
      before.getLast? = some .coveredText := by
    rw [List.getLast?_cons]
    cases before.getLast? <;> simp [hs]
  cases h with
  | unread h => exact .unread h
  | behindText h htext => exact .behindText h (hlast.mpr htext)
  | textIndexed h hbefore htext hindex => exact .textIndexed h (mt hlast.mp hbefore) htext hindex
  | inaccessible h hbefore ht hunseen => exact .inaccessible h (mt hlast.mp hbefore) ht hunseen

/-- Where no covered text comes before, a segment is refused because it cannot be read, has an index
on text or names a feature that the type does not have. -/
theorem refused_of_resolve (hbefore : before.getLast? ≠ some .coveredText)
    (h : resolve ts (.ofStart type?) w = .error e) : Refused ts type? before w e := by
  rw [resolve] at h
  cases hr : Reference.read w with
  | error e' =>
      obtain rfl : e' = e := by simpa [hr] using h
      exact .unread hr
  | ok r =>
      simp only [hr] at h
      obtain htext | ⟨s, hnames⟩ | ⟨t, rfl, hunseen⟩ := isText_or_names_or_unseen ts type? r
      · rw [bind_of_isText htext, ofText] at h
        cases hindex : r.index? with
        | none => simp [hindex] at h
        | some i =>
            obtain rfl : _ = e := by simpa [hindex] using h
            exact .textIndexed hr hbefore htext hindex
      · rw [hnames.bind_eq] at h
        cases h
      · obtain rfl := Except.error.inj ((bind_of_isUnseen hunseen).symm.trans h)
        exact .inaccessible hr hbefore rfl hunseen

/-- Behind covered text every segment is refused. -/
theorem refused_of_resolve_text (hbefore : before.getLast? = some .coveredText)
    (h : resolve ts .text w = .error e) : Refused ts type? before w e := by
  rw [resolve] at h
  cases hr : Reference.read w with
  | error e' =>
      obtain rfl : e' = e := by simpa [hr] using h
      exact .unread hr
  | ok r =>
      obtain rfl : _ = e := by simpa [hr, bind] using h
      exact .behindText hr hbefore

end Segment

namespace FeaturePath

/-- If segments are not resolved, the first is refused or one behind it. -/
theorem resolveFrom_cons_eq_error {cursor : Cursor} {w : String} {rest : List String}
    {e : ResolutionError} (h : resolveFrom ts cursor (w :: rest) = .error e) :
    Segment.resolve ts cursor w = .error e ∨
      ∃ s, Segment.resolve ts cursor w = .ok s ∧
        resolveFrom ts (Cursor.behind ts s) rest = .error e := by
  rw [resolveFrom] at h
  cases hs : Segment.resolve ts cursor w with
  | error e' => exact .inl (by simpa [hs] using h)
  | ok s =>
      cases htail : resolveFrom ts (Cursor.behind ts s) rest with
      | error e' => exact .inr ⟨s, rfl, by simpa [hs, htail] using h⟩
      | ok tail => simp [hs, htail] at h

/-- **What fails fails at a segment that is refused**, and the segments in front of it have a
typing. -/
theorem exists_refused_of_error (hts : ts.Consistent) {raw : List String} {e : ResolutionError}
    (h : resolveFrom ts (.ofStart type?) raw = .error e) :
    ∃ before w behind refs segments, raw = before ++ w :: behind ∧
      List.Forall₂ (Reference.read · = .ok ·) before refs ∧ Typed ts type? refs segments ∧
      Segment.Refused ts (typeBehind? ts type? refs) segments w e := by
  induction raw generalizing type? with
  | nil => exact nomatch h
  | cons w rest ih =>
      obtain hw | ⟨s, hs, htail⟩ := resolveFrom_cons_eq_error h
      · exact ⟨[], w, rest, [], [], rfl, .nil, .nil type?, Segment.refused_of_resolve nofun hw⟩
      · obtain ⟨r, hr, hbind⟩ := Segment.resolve_eq_ok_iff.mp hs
        obtain hnames | ⟨rfl, htext, hindex⟩ := Segment.bind_eq_ok_iff.mp hbind
        · rw [hnames.behind_eq hts] at htail
          obtain ⟨before, w', behind, refs, segments, rfl, hread, htyped, href⟩ := ih htail
          exact ⟨w :: before, w', behind, r :: refs, s :: segments, rfl, .cons hr hread,
            .cons hnames htyped, href.cons hnames.ne_coveredText⟩
        · -- nothing is bound behind the covered text, so what stands there is refused
          cases rest with
          | nil => exact nomatch htail
          | cons w' behind =>
              refine ⟨[w], w', behind, [r], [.coveredText], rfl, .cons hr .nil,
                .text htext hindex, Segment.refused_of_resolve_text rfl ?_⟩
              obtain hw' | ⟨s, hs', -⟩ := resolveFrom_cons_eq_error htail
              · exact hw'
              · exact absurd hs' Segment.resolve_text_ne_ok

/-- A path is resolved if its segments are, from its start on. -/
theorem resolve_eq_ok_iff {start? : Option TypeId} {raw : List String} {path : FeaturePath} :
    resolve ts start? raw = .ok path ↔
      path.start? = start? ∧ resolveFrom ts (.ofStart start?) raw = .ok path.segments := by
  obtain ⟨start', segments⟩ := path
  rw [resolve]
  cases resolveFrom ts (.ofStart start?) raw with
  | error e => simp
  | ok found => simp [eq_comm]

/-- What a path says of the references that it resolves. -/
structure Types (ts : TypeSystem) (refs : List Reference) (path : FeaturePath) : Prop where
  typed : Typed ts path.start? refs path.segments
  name_index : List.Forall₂
    (fun r s => (s.name = r.name ∨ s = .coveredText) ∧ s.index? = r.index?) refs path.segments
  shape : ∃ bound late text, path.segments = bound ++ late ++ text ∧
    IsInOrder ts path.start? refs bound late text

/-- A typed path types its references. -/
theorem Types.of_typed {refs : List Reference} {path : FeaturePath}
    (h : Typed ts path.start? refs path.segments) : path.Types ts refs :=
  ⟨h, h.forall₂_name_index, h.exists_shape⟩

/-- A path that is resolved types the references that are read. -/
theorem types_of_resolve (hts : ts.Consistent) {start? : Option TypeId} {raw : List String}
    {path : FeaturePath} (h : resolve ts start? raw = .ok path) :
    path.start? = start? ∧ ∃ refs, List.Forall₂ (Reference.read · = .ok ·) raw refs ∧
      path.Types ts refs := by
  obtain ⟨rfl, hsegments⟩ := resolve_eq_ok_iff.mp h
  obtain ⟨refs, hread, htyped⟩ := (resolveFrom_eq_ok_iff hts).mp hsegments
  exact ⟨rfl, refs, hread, .of_typed htyped⟩

/-- A path is resolved if and only if its segments are read as references that are well typed. -/
theorem exists_resolve_iff (hts : ts.Consistent) {start? : Option TypeId} {raw : List String} :
    (∃ path, resolve ts start? raw = .ok path) ↔
      ∃ refs, List.Forall₂ (Reference.read · = .ok ·) raw refs ∧ WellTyped ts start? refs := by
  constructor
  · rintro ⟨path, h⟩
    obtain ⟨rfl, refs, hread, htypes⟩ := types_of_resolve hts h
    exact ⟨refs, hread, exists_typed_iff.mp ⟨_, htypes.typed⟩⟩
  · rintro ⟨refs, hread, hwell⟩
    obtain ⟨segments, htyped⟩ := exists_typed_iff.mpr hwell
    exact ⟨⟨start?, segments⟩,
      resolve_eq_ok_iff.mpr ⟨rfl, (resolveFrom_eq_ok_iff hts).mpr ⟨refs, hread, htyped⟩⟩⟩

/-- **Resolution by typing.** From a known type or an unknown one, written segments are resolved
exactly if they are read as well-typed references. The path then types these references from that
type on. Otherwise there is a first segment that is refused, behind segments that have a typing, and
the error says why. -/
theorem resolve_by_typing (ds : List Declaration) (start? : Option TypeId) (raw : List String) :
    ((∃ path, resolve (.declared ds) start? raw = .ok path) ↔
      ∃ refs, List.Forall₂ (Reference.read · = .ok ·) raw refs ∧
        WellTyped (.declared ds) start? refs) ∧
    (∀ path, resolve (.declared ds) start? raw = .ok path →
      path.start? = start? ∧ ∃ refs, List.Forall₂ (Reference.read · = .ok ·) raw refs ∧
        path.Types (.declared ds) refs) ∧
    ((¬ ∃ refs, List.Forall₂ (Reference.read · = .ok ·) raw refs ∧
        WellTyped (.declared ds) start? refs) →
      ∃ e, resolve (.declared ds) start? raw = .error e ∧
        ∃ before w behind refs segments, raw = before ++ w :: behind ∧
          List.Forall₂ (Reference.read · = .ok ·) before refs ∧
          Typed (.declared ds) start? refs segments ∧
          Segment.Refused (.declared ds) (typeBehind? (.declared ds) start? refs) segments w
            e) := by
  have hts := TypeSystem.consistent_declared ds
  refine ⟨exists_resolve_iff hts, fun path h => types_of_resolve hts h, fun hnot => ?_⟩
  cases h : resolveFrom (.declared ds) (.ofStart start?) raw with
  | error e => exact ⟨e, by rw [resolve, h], exists_refused_of_error hts h⟩
  | ok segments =>
      have hpath : resolve (.declared ds) start? raw = .ok ⟨start?, segments⟩ :=
        resolve_eq_ok_iff.mpr ⟨rfl, h⟩
      exact absurd ((exists_resolve_iff hts).mp ⟨_, hpath⟩) hnot

example : resolve (.declared Sample.mentions) (some ⟨1⟩) ["next", "ct", "born"] =
    .error ⟨"born", none, .textHasNoFeatures⟩ := by decide +kernel

end FeaturePath

end AnnotatedText

import AnnotatedText.Proofs.TypeSystem.Lineage

/-!
# Histories of declarations

A type system is built from the root by declarations, of which any may be refused; one that is
refused leaves the system as it is. Before a feature is declared its name is looked for on the type
and the types above, `declare_cases`, but not on the types below. So of two features of one name on
one lineage the lower one is always the older one, `Consistent.older_below`, and that is all that the
check gives: the lower one hides the other from the types below.

## Main results

* `TypeSystem.consistent_declared`: what holds of a type system after every history.
* `TypeSystem.inherited_iff_declared_downward`: what a type sees is seen by the types below exactly
  if no feature is declared after one of its name on a type below.
-/

namespace AnnotatedText

/-- A declaration. -/
inductive Declaration where
  | type (name parent : String)
  | feature (owner : TypeId) (name : String) (range : Range)
  deriving DecidableEq

namespace TypeSystem

/-- The type system with one more declaration. -/
def declare (ts : TypeSystem) : Declaration → Except DeclarationError TypeSystem
  | .type name parent => (ts.declareType name parent).map Prod.fst
  | .feature owner name range => (ts.declareFeature owner name range).map Prod.fst

/-- The type system after a history of declarations. -/
def declareAll (ts : TypeSystem) : List Declaration → TypeSystem
  | [] => ts
  | d :: rest =>
    match ts.declare d with
    | .ok more => more.declareAll rest
    | .error _ => ts.declareAll rest

/-- The type system that a history of declarations builds from the root. -/
def declared (ds : List Declaration) : TypeSystem := root.declareAll ds

variable {ts : TypeSystem}

/-! ### One declaration -/

/-- **What a declaration does**: it adds a type of a new name below a type that is there, or a
feature of a name that neither the type nor a type above has declared. -/
theorem declare_cases {d : Declaration} {more : TypeSystem} (h : ts.declare d = .ok more) :
    (∃ name parent p, d = .type name parent ∧ ts.typeNamed? name = none ∧
      ts.typeNamed? parent = some p ∧ more = ⟨ts.types ++ [⟨name, some p⟩], ts.features⟩) ∨
    ∃ t name range, d = .feature t name range ∧ ts.hasType t = true ∧
      (∀ u ∈ range.mentioned?, ts.hasType u = true) ∧
      (∀ f ∈ ts.features, f.name = name → ¬ ts.subsumes f.domain t = true) ∧
      more = ⟨ts.types, ts.features ++ [⟨⟨ts.features.length⟩, name, t, range⟩]⟩ := by
  cases d with
  | type name parent =>
      left
      cases hname : ts.typeNamed? name with
      | some t => simp [declare, declareType, hname, Except.map] at h
      | none =>
          cases hparent : ts.typeNamed? parent with
          | none => simp [declare, declareType, hname, hparent, Except.map] at h
          | some p =>
              by_cases hroom : ts.types.length < placeLimit
              · obtain rfl : _ = more := by
                  simpa [declare, declareType, hname, hparent, hroom, Except.map] using h
                exact ⟨name, parent, p, rfl, hname, hparent, rfl⟩
              · simp [declare, declareType, hname, hparent, hroom, Except.map] at h
  | feature t name range =>
      right
      by_cases ht : ts.hasType t = true
      · by_cases hr : range.mentioned?.any (!ts.hasType ·) = true
        · simp [declare, declareFeature, ht, hr, Except.map] at h
        · cases howner : (ts.lineage t).find? fun u => (ts.ownFeature? u name).isSome with
          | some u => simp [declare, declareFeature, ht, hr, howner, Except.map] at h
          | none =>
              by_cases hroom : ts.features.length < placeLimit
              · obtain rfl : _ = more := by
                  simpa [declare, declareFeature, ht, hr, howner, hroom, Except.map] using h
                refine ⟨t, name, range, rfl, ht, fun u hu => ?_, fun f hf hname hsub => ?_, rfl⟩
                · simpa [Option.mem_def.mp hu] using hr
                · have hnone := List.find?_eq_none.mp howner f.domain (subsumes_iff.mp hsub)
                  exact hnone (isSome_ownFeature?_iff.mpr ⟨f, hf, rfl, hname⟩)
              · simp [declare, declareFeature, ht, hr, howner, hroom, Except.map] at h
      · simp [declare, declareFeature, ht, Except.map] at h

/-! ### Histories -/

/-- What stands at a place of a list with one more behind it. -/
theorem getElem?_concat_eq_some {α : Type} {xs : List α} {x y : α} {i : Nat}
    (h : (xs ++ [x])[i]? = some y) : xs[i]? = some y ∨ i = xs.length ∧ x = y := by
  rcases Nat.lt_or_ge i xs.length with hi | hi
  · rw [List.getElem?_append_left hi] at h
    exact Or.inl h
  · rw [List.getElem?_append_right hi, List.getElem?_singleton] at h
    split at h
    · exact Or.inr ⟨by omega, Option.some.inj h⟩
    · cases h

/-- What holds of every type system that is built by declarations. -/
structure Consistent (ts : TypeSystem) : Prop where
  feature_place : ∀ i (f : Feature), ts.features[i]? = some f → f.id = ⟨i⟩
  domain_declared : ∀ f ∈ ts.features, ts.hasType f.domain = true
  /-- Of two features of one name on one lineage the lower one is the older one. -/
  older_below : ∀ f ∈ ts.features, ∀ g ∈ ts.features, f.name = g.name →
    ts.subsumes f.domain g.domain = true → g.id.index ≤ f.id.index

theorem consistent_root : root.Consistent := ⟨by simp [root], by simp [root], by simp [root]⟩

/-- A further type leaves the features and the types that were there as they are. -/
theorem Consistent.addType (h : ts.Consistent) (entry : TypeEntry) :
    Consistent ⟨ts.types ++ [entry], ts.features⟩ := by
  refine ⟨h.feature_place, fun f hf => ?_, fun f hf g hg hname hsub => ?_⟩
  · have := of_decide_eq_true (h.domain_declared f hf)
    exact decide_eq_true (by simp; omega)
  · have hg' := of_decide_eq_true (h.domain_declared g hg)
    have hparent (u : TypeId) (hu : u.index ≤ g.domain.index) :
        parent? ⟨ts.types ++ [entry], ts.features⟩ u = ts.parent? u := by
      rw [parent?, parent?, List.getElem?_append_left (Nat.lt_of_le_of_lt hu hg')]
    rw [subsumes_congr hparent] at hsub
    exact h.older_below f hf g hg hname hsub

/-- A further feature is younger than all others, so only they must not stand above it. -/
theorem Consistent.addFeature (h : ts.Consistent) {t : TypeId} (ht : ts.hasType t = true)
    {name : String} (hnew : ∀ f ∈ ts.features, f.name = name → ¬ ts.subsumes f.domain t = true)
    (range : Range) :
    Consistent ⟨ts.types, ts.features ++ [⟨⟨ts.features.length⟩, name, t, range⟩]⟩ := by
  refine ⟨fun i f hf => ?_, fun f hf => ?_, fun f hf g hg hname hsub => ?_⟩
  · rcases getElem?_concat_eq_some hf with hf | ⟨rfl, rfl⟩
    · exact h.feature_place i f hf
    · rfl
  · rcases List.mem_append.mp hf with hf | hf
    · exact h.domain_declared f hf
    · obtain rfl := List.mem_singleton.mp hf
      exact ht
  · have hsub : ts.subsumes f.domain g.domain = true := by
      refine (subsumes_congr ?_ _).symm.trans hsub
      exact fun u _ => rfl
    rcases List.mem_append.mp hf with hf | hf <;> rcases List.mem_append.mp hg with hg | hg
    · exact h.older_below f hf g hg hname hsub
    · obtain rfl := List.mem_singleton.mp hg
      exact absurd hsub (hnew f hf hname)
    · obtain rfl := List.mem_singleton.mp hf
      obtain ⟨i, hi, rfl⟩ := List.mem_iff_getElem.mp hg
      rw [h.feature_place i _ (List.getElem?_eq_getElem hi)]
      exact Nat.le_of_lt hi
    · obtain rfl := List.mem_singleton.mp hf
      obtain rfl := List.mem_singleton.mp hg
      exact Nat.le_refl _

/-- **One declaration keeps a type system consistent.** -/
theorem Consistent.declare (h : ts.Consistent) {d : Declaration} {more : TypeSystem}
    (hd : ts.declare d = .ok more) : more.Consistent := by
  obtain ⟨name, -, p, -, -, -, rfl⟩ | ⟨t, name, range, -, ht, -, hnew, rfl⟩ := declare_cases hd
  · exact h.addType ⟨name, some p⟩
  · exact h.addFeature ht hnew range

/-- A history goes on from the type system that its first part leaves behind. -/
theorem declareAll_append (ts : TypeSystem) (ds more : List Declaration) :
    ts.declareAll (ds ++ more) = (ts.declareAll ds).declareAll more := by
  induction ds generalizing ts with
  | nil => rfl
  | cons d rest ih =>
      rw [List.cons_append, declareAll, declareAll]
      cases ts.declare d with
      | ok next => exact ih next
      | error e => exact ih ts

/-- What every accepted declaration keeps is kept by a history. -/
theorem declareAll_induction {P : TypeSystem → Prop} (h : P ts)
    (hstep : ∀ ts d more, P ts → ts.declare d = .ok more → P more) (ds : List Declaration) :
    P (ts.declareAll ds) := by
  induction ds generalizing ts with
  | nil => exact h
  | cons d rest ih =>
      rw [declareAll]
      cases hd : ts.declare d with
      | ok more => exact ih (hstep ts d more h hd)
      | error e => exact ih h

/-- **What holds of a type system after every history.** -/
theorem consistent_declared (ds : List Declaration) : (declared ds).Consistent :=
  declareAll_induction consistent_root (fun _ _ _ h hd => h.declare hd) ds

/-! ### What consistency gives -/

namespace Consistent

/-- A feature is found at its place. -/
theorem feature?_id (h : ts.Consistent) {f : Feature} (hf : f ∈ ts.features) :
    ts.feature? f.id = some f := by
  obtain ⟨i, hi, rfl⟩ := List.mem_iff_getElem.mp hf
  rw [h.feature_place i _ (List.getElem?_eq_getElem hi)]
  exact List.getElem?_eq_getElem hi

/-- Features at one place are one feature. -/
theorem eq_of_index_eq (h : ts.Consistent) {f g : Feature} (hf : f ∈ ts.features)
    (hg : g ∈ ts.features) (hid : f.id.index = g.id.index) : f = g := by
  have hplace : ts.features[f.id.index]? = ts.features[g.id.index]? := congrArg _ hid
  exact Option.some.inj ((h.feature?_id hf).symm.trans (hplace.trans (h.feature?_id hg)))

/-- No type declares two features of one name. -/
theorem eq_of_domain_eq (h : ts.Consistent) {f g : Feature} (hf : f ∈ ts.features)
    (hg : g ∈ ts.features) (hdomain : f.domain = g.domain) (hname : f.name = g.name) : f = g := by
  have hfg := h.older_below f hf g hg hname (hdomain ▸ ts.subsumes_refl _)
  have hgf := h.older_below g hg f hf hname.symm (hdomain ▸ ts.subsumes_refl _)
  exact h.eq_of_index_eq hf hg (Nat.le_antisymm hgf hfg)

/-- A type sees what it declares itself. -/
theorem featureNamed?_domain (h : ts.Consistent) {f : Feature} (hf : f ∈ ts.features) :
    ts.featureNamed? f.domain f.name = some f := by
  obtain ⟨g, hg⟩ : ∃ g, ts.ownFeature? f.domain f.name = some g :=
    Option.isSome_iff_exists.mp (isSome_ownFeature?_iff.mpr ⟨f, hf, rfl, rfl⟩)
  obtain ⟨hmem, hdomain, hname⟩ := ownFeature?_eq_some hg
  obtain rfl := h.eq_of_domain_eq hmem hf hdomain hname
  exact featureNamed?_of_ownFeature? hg

end Consistent

/-! ### Inherited features -/

/-- **What a type sees is seen by the types below** exactly if no feature was declared after one of
its name on a type below. -/
theorem inherited_iff_declared_downward (ds : List Declaration) :
    (∀ sup sub name f, (declared ds).subsumes sup sub = true →
      (declared ds).featureNamed? sup name = some f →
        (declared ds).featureNamed? sub name = some f) ↔
      ∀ f ∈ (declared ds).features, ∀ g ∈ (declared ds).features, f.name = g.name →
        (declared ds).subsumes f.domain g.domain = true → ¬ g.id.index < f.id.index := by
  have hc := consistent_declared ds
  constructor
  · intro hinherited f hf g hg hname hsub
    have hseen := hinherited f.domain g.domain f.name f hsub (hc.featureNamed?_domain hf)
    rw [hname, hc.featureNamed?_domain hg] at hseen
    obtain rfl := Option.some.inj hseen
    exact Nat.lt_irrefl _
  · intro hdownward sup sub name f hsub hf
    refine Unshadowed.featureNamed?_of_subsumes (fun f hf g hg hname hdomain => ?_) hsub hf
    have hfg := Nat.le_of_not_lt (hdownward f hf g hg hname hdomain)
    have hgf := hc.older_below f hf g hg hname hdomain
    exact congrArg Feature.domain (hc.eq_of_index_eq hf hg (Nat.le_antisymm hfg hgf))

/-- A feature that is declared on a type after one of its name on a type below is hidden from the
type below. -/
theorem not_always_inherited :
    ¬ ∀ ds sup sub name f, (declared ds).subsumes sup sub = true →
      (declared ds).featureNamed? sup name = some f →
        (declared ds).featureNamed? sub name = some f := by
  intro h
  have hseen := h [.type "Base" rootName, .type "Sub" "Base", .feature ⟨2⟩ "x" (.scalar .string),
    .feature ⟨1⟩ "x" (.scalar .integer)] ⟨1⟩ ⟨2⟩ "x" ⟨⟨1⟩, "x", ⟨1⟩, .scalar .integer⟩
  exact absurd (hseen (by decide +kernel) (by decide +kernel)) (by decide +kernel)

end TypeSystem

end AnnotatedText

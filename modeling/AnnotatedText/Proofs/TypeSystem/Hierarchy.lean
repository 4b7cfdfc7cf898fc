import Mathlib.Logic.Relation
import AnnotatedText.Proofs.TypeSystem.Declarations

/-!
# Hierarchies of types

A type is declared under a name that is new and below a type that is there already. So after every
history of declarations the types form a tree: the root is the only type without one above it, the
type above any other one comes before it, and a name leads to one type at most. No declaration looks
at all of this, and no look-up checks any of it; it is there because each declaration adds its part.

In such a tree the way up from a type leads through types that are there and ends at the root. The
types above a type are a chain, and what a type sees under a name is the feature declared on the
lowest of them that declares one.

## Main results

* `TypeSystem.hierarchical_declared`: the types form a tree after every history.
* `TypeSystem.typeNamed?_eq_some_iff`: looking up a name is the inverse of naming a type.
* `TypeSystem.subsumes_iff_reaches`: being above is being reached by steps to the type above.
* `TypeSystem.subsumes_or_subsumes`: of two types above a type one is above the other.
* `TypeSystem.featureNamed?_eq_some_iff`: what a type sees is declared nearest to it.
-/

namespace AnnotatedText.TypeSystem

variable {ts : TypeSystem}

/-! ### Types that are there -/

theorem hasType_iff {t : TypeId} : ts.hasType t = true ↔ t.index < ts.types.length :=
  decide_eq_true_iff

/-- A type that is there has an entry. -/
theorem exists_entry {t : TypeId} (ht : ts.hasType t = true) :
    ∃ e, ts.types[t.index]? = some e :=
  ⟨_, List.getElem?_eq_getElem (hasType_iff.mp ht)⟩

/-- The parent of a type is that of its entry. -/
theorem parent?_of_getElem? {t : TypeId} {e : TypeEntry} (he : ts.types[t.index]? = some e) :
    ts.parent? t = e.parent? := by
  rw [parent?, he, Option.bind_some]

/-- The name of a type is that of its entry. -/
theorem typeName_of_getElem? {t : TypeId} {e : TypeEntry} (he : ts.types[t.index]? = some e) :
    ts.typeName t = e.name := by
  rw [typeName, he]

/-- A type above another one stands at the place of a type. -/
theorem hasType_of_parent? {t p : TypeId} (hp : ts.parent? t = some p) : ts.hasType t = true := by
  obtain ⟨e, he, -⟩ := Option.bind_eq_some_iff.mp hp
  exact hasType_iff.mpr (List.getElem?_eq_some_iff.mp he).1

/-- What is looked up under a name is a type of that name. -/
theorem hasType_of_typeNamed? {name : String} {t : TypeId} (h : ts.typeNamed? name = some t) :
    ts.hasType t = true ∧ ts.typeName t = name := by
  obtain ⟨i, hi, rfl⟩ := Option.map_eq_some_iff.mp h
  obtain ⟨hlt, hname, -⟩ := List.findIdx?_eq_some_iff_getElem.mp hi
  refine ⟨hasType_iff.mpr hlt, ?_⟩
  rw [typeName_of_getElem? (List.getElem?_eq_getElem hlt)]
  exact eq_of_beq hname

/-- A name finds no type if and only if none has it. -/
theorem typeNamed?_eq_none_iff {name : String} :
    ts.typeNamed? name = none ↔ name ∉ ts.types.map TypeEntry.name := by
  simp [typeNamed?, List.findIdx?_eq_none_iff]

/-! ### Histories -/

/-- What holds of the types of every type system that is built by declarations, and of the ranges of
its features. -/
structure Hierarchical (ts : TypeSystem) : Prop where
  root_first : ts.types[0]? = some ⟨rootName, none⟩
  parent_before : ∀ i (e : TypeEntry), ts.types[i + 1]? = some e →
    ∃ p, e.parent? = some p ∧ p.index ≤ i
  names_distinct : (ts.types.map TypeEntry.name).Nodup
  range_declared : ∀ f ∈ ts.features, ∀ u ∈ f.range.mentioned?, ts.hasType u = true

/-- The root alone is a hierarchy. -/
theorem hierarchical_root : root.Hierarchical :=
  ⟨rfl, by simp [root], by simp [root], by simp [root]⟩

/-- A further type stands behind the one above it, and has a name of its own. -/
theorem Hierarchical.addType (h : ts.Hierarchical) {name : String} {p : TypeId}
    (hname : ts.typeNamed? name = none) (hp : ts.hasType p = true) :
    Hierarchical ⟨ts.types ++ [⟨name, some p⟩], ts.features⟩ := by
  refine ⟨?_, fun i e he => ?_, ?_, fun f hf u hu => ?_⟩
  · have hpos := (List.getElem?_eq_some_iff.mp h.root_first).1
    show (ts.types ++ [_])[0]? = _
    rw [List.getElem?_append_left hpos]
    exact h.root_first
  · rcases getElem?_concat_eq_some he with he | ⟨hlast, rfl⟩
    · exact h.parent_before i e he
    · have hlt := hasType_iff.mp hp
      exact ⟨p, rfl, by omega⟩
  · rw [List.map_append, List.nodup_append]
    refine ⟨h.names_distinct, List.pairwise_singleton _ _, fun a ha b hb hab => ?_⟩
    obtain rfl := List.mem_singleton.mp hb
    exact typeNamed?_eq_none_iff.mp hname (hab ▸ ha)
  · have hlt := hasType_iff.mp (h.range_declared f hf u hu)
    refine hasType_iff.mpr ?_
    rw [List.length_append]
    omega

/-- A further feature changes nothing but that its own range mentions a type as well. -/
theorem Hierarchical.addFeature (h : ts.Hierarchical) {f : Feature}
    (hf : ∀ u ∈ f.range.mentioned?, ts.hasType u = true) :
    Hierarchical ⟨ts.types, ts.features ++ [f]⟩ := by
  refine ⟨h.root_first, h.parent_before, h.names_distinct, fun g hg => ?_⟩
  rcases List.mem_append.mp hg with hg | hg
  · exact h.range_declared g hg
  · obtain rfl := List.mem_singleton.mp hg
    exact hf

/-- **One declaration keeps the tree.** -/
theorem Hierarchical.declare (h : ts.Hierarchical) {d : Declaration} {more : TypeSystem}
    (hd : ts.declare d = .ok more) : more.Hierarchical := by
  obtain ⟨name, parent, p, -, hname, hparent, rfl⟩ | ⟨t, name, range, -, -, hrange, -, rfl⟩ :=
    declare_cases hd
  · exact h.addType hname (hasType_of_typeNamed? hparent).1
  · exact h.addFeature hrange

/-- **The types form a tree after every history.** -/
theorem hierarchical_declared (ds : List Declaration) : (declared ds).Hierarchical :=
  declareAll_induction hierarchical_root (fun _ _ _ h hd => h.declare hd) ds

/-! ### Names and types above -/

namespace Hierarchical

/-- The root is there. -/
theorem hasType_root (h : ts.Hierarchical) : ts.hasType rootType = true :=
  hasType_iff.mpr (List.getElem?_eq_some_iff.mp h.root_first).1

/-- The root has no parent. -/
theorem parent?_root (h : ts.Hierarchical) : ts.parent? rootType = none :=
  parent?_of_getElem? h.root_first

/-- Every type but the root has one above it, which comes before it. -/
theorem exists_parent (h : ts.Hierarchical) {t : TypeId} (ht : ts.hasType t = true)
    (hne : t ≠ rootType) : ∃ p, ts.parent? t = some p ∧ p.index < t.index := by
  obtain ⟨e, he⟩ := exists_entry ht
  obtain ⟨i, hi⟩ : ∃ i, t.index = i + 1 := by
    refine Nat.exists_eq_succ_of_ne_zero fun hzero => hne ?_
    rw [← show TypeId.mk t.index = t from rfl, hzero]
    rfl
  obtain ⟨p, hp, hle⟩ := h.parent_before i e (hi ▸ he)
  exact ⟨p, (parent?_of_getElem? he).trans hp, by omega⟩

/-- A parent is declared before its children. -/
theorem parent_lt (h : ts.Hierarchical) {t p : TypeId} (hp : ts.parent? t = some p) :
    p.index < t.index := by
  have hne : t ≠ rootType := by
    rintro rfl
    rw [h.parent?_root] at hp
    cases hp
  obtain ⟨q, hq, hlt⟩ := h.exists_parent (hasType_of_parent? hp) hne
  obtain rfl : p = q := Option.some.inj (hp.symm.trans hq)
  exact hlt

/-- A parent is there. -/
theorem hasType_parent (h : ts.Hierarchical) {t p : TypeId} (hp : ts.parent? t = some p) :
    ts.hasType p = true := by
  have hlt := h.parent_lt hp
  have ht := hasType_iff.mp (hasType_of_parent? hp)
  exact hasType_iff.mpr (by omega)

/-- **The root is the only type without one above it.** -/
theorem parent?_eq_none_iff (h : ts.Hierarchical) {t : TypeId} (ht : ts.hasType t = true) :
    ts.parent? t = none ↔ t = rootType := by
  constructor
  · intro hnone
    by_cases hroot : t = rootType
    · exact hroot
    · obtain ⟨p, hp, -⟩ := h.exists_parent ht hroot
      rw [hnone] at hp
      cases hp
  · rintro rfl
    exact h.parent?_root

/-- **Looking up a name is the inverse of naming a type.** -/
theorem typeNamed?_eq_some_iff (h : ts.Hierarchical) {name : String} {t : TypeId} :
    ts.typeNamed? name = some t ↔ ts.hasType t = true ∧ ts.typeName t = name := by
  refine ⟨hasType_of_typeNamed?, ?_⟩
  rintro ⟨ht, rfl⟩
  obtain ⟨e, he⟩ := exists_entry ht
  rw [typeName_of_getElem? he]
  cases hfound : ts.typeNamed? e.name with
  | none =>
      have hmem : e.name ∈ ts.types.map TypeEntry.name :=
        List.mem_map_of_mem (List.mem_of_getElem? he)
      exact absurd hmem (typeNamed?_eq_none_iff.mp hfound)
  | some u =>
      obtain ⟨hu, hname⟩ := hasType_of_typeNamed? hfound
      obtain ⟨e', he'⟩ := exists_entry hu
      rw [typeName_of_getElem? he'] at hname
      -- both types stand in the list of names, where each name stands once
      have hplace : u.index = t.index := by
        refine (List.getElem?_inj (l := ts.types.map TypeEntry.name) ?_ h.names_distinct).mp ?_
        · rw [List.length_map]
          exact hasType_iff.mp hu
        · rw [List.getElem?_map, List.getElem?_map, he, he', Option.map_some, Option.map_some, hname]
      exact congrArg some (congrArg TypeId.mk hplace)

end Hierarchical

/-! ### The order of types -/

/-- A type without a parent is all of its lineage. -/
theorem lineage_of_parent?_eq_none {t : TypeId} (h : ts.parent? t = none) :
    ts.lineage t = [t] := by
  rw [lineage, h]

/-- Only types above each other in both directions are the same. -/
theorem subsumes_antisymm {a b : TypeId} (hab : ts.subsumes a b = true)
    (hba : ts.subsumes b a = true) : a = b := by
  have hle := index_le_of_mem_lineage (subsumes_iff.mp hab)
  have hge := index_le_of_mem_lineage (subsumes_iff.mp hba)
  exact congrArg TypeId.mk (Nat.le_antisymm hle hge)

/-- **Of two types above a type one is above the other.** -/
theorem subsumes_or_subsumes {a b t : TypeId} (ha : ts.subsumes a t = true)
    (hb : ts.subsumes b t = true) : ts.subsumes a b = true ∨ ts.subsumes b a = true := by
  have hsuffix := List.suffix_or_suffix_of_suffix (lineage_suffix (subsumes_iff.mp ha))
    (lineage_suffix (subsumes_iff.mp hb))
  rcases hsuffix with h | h
  · exact Or.inl (subsumes_iff.mpr (h.subset (ts.self_mem_lineage a)))
  · exact Or.inr (subsumes_iff.mpr (h.subset (ts.self_mem_lineage b)))

namespace Hierarchical

/-- The way up from a type leads on from the type above it. -/
theorem lineage_of_parent?_eq_some (h : ts.Hierarchical) {t p : TypeId}
    (hp : ts.parent? t = some p) : ts.lineage t = t :: ts.lineage p := by
  have hlt := h.parent_lt hp
  rw [lineage, hp]
  simp only [hlt, if_true]

/-- **Being above is being reached** by steps to the type above. -/
theorem subsumes_iff_reaches (h : ts.Hierarchical) {sup sub : TypeId} :
    ts.subsumes sup sub = true ↔
      Relation.ReflTransGen (fun t p => ts.parent? t = some p) sub sup := by
  rw [subsumes_iff]
  constructor
  · intro hmem
    fun_induction ts.lineage sub with
    | case1 t hp =>
        obtain rfl := List.mem_singleton.mp hmem
        exact .refl
    | case2 t p hp hlt ih =>
        rcases List.mem_cons.mp hmem with rfl | hmem
        · exact .refl
        · exact .head hp (ih hmem)
    | case3 t p hp hlt => exact absurd (h.parent_lt hp) hlt
  · intro hreach
    induction hreach using Relation.ReflTransGen.head_induction_on with
    | refl => exact ts.self_mem_lineage sup
    | head hp _ ih =>
        rw [h.lineage_of_parent?_eq_some hp]
        exact List.mem_cons_of_mem _ ih

/-- **The root is above every type.** -/
theorem subsumes_root (h : ts.Hierarchical) {t : TypeId} (ht : ts.hasType t = true) :
    ts.subsumes rootType t = true := by
  rw [subsumes_iff]
  fun_induction ts.lineage t with
  | case1 t hp => exact List.mem_singleton.mpr ((h.parent?_eq_none_iff ht).mp hp).symm
  | case2 t p hp hlt ih => exact List.mem_cons_of_mem _ (ih (h.hasType_parent hp))
  | case3 t p hp hlt => exact absurd (h.parent_lt hp) hlt

end Hierarchical

/-! ### Features -/

namespace Consistent

/-- **A feature is found under its name on its domain**, and under no other name or type. -/
theorem ownFeature?_eq_some_iff (h : ts.Consistent) {t : TypeId} {name : String} {f : Feature} :
    ts.ownFeature? t name = some f ↔ f ∈ ts.features ∧ f.domain = t ∧ f.name = name := by
  refine ⟨ownFeature?_eq_some, ?_⟩
  rintro ⟨hf, rfl, rfl⟩
  obtain ⟨g, hg⟩ := Option.isSome_iff_exists.mp (isSome_ownFeature?_iff.mpr ⟨f, hf, rfl, rfl⟩)
  obtain ⟨hmem, hdomain, hname⟩ := ownFeature?_eq_some hg
  rw [hg, h.eq_of_domain_eq hmem hf hdomain hname]

/-- **What a type sees** under a name is the feature of that name that is declared nearest to it: on
a type above it, and below all other types above it that declare one. -/
theorem featureNamed?_eq_some_iff (h : ts.Consistent) {t : TypeId} {name : String} {f : Feature} :
    ts.featureNamed? t name = some f ↔
      f ∈ ts.features ∧ f.name = name ∧ ts.subsumes f.domain t = true ∧
        ∀ g ∈ ts.features, g.name = name → ts.subsumes g.domain t = true →
          ts.subsumes g.domain f.domain = true := by
  constructor
  · intro hf
    obtain ⟨hmem, hname, hsub, -⟩ := featureNamed?_eq_some hf
    refine ⟨hmem, hname, hsub, ?_⟩
    rintro g hg rfl hgt
    obtain ⟨seen, hseen, hdomain⟩ :=
      exists_featureNamed?_of_subsumes hgt (h.featureNamed?_domain hg)
    rw [hf] at hseen
    obtain rfl := Option.some.inj hseen
    exact hdomain
  · rintro ⟨hmem, rfl, hsub, hnearest⟩
    obtain ⟨g, hg, hdomain⟩ :=
      exists_featureNamed?_of_subsumes hsub (h.featureNamed?_domain hmem)
    obtain ⟨hgmem, hgname, hgsub, -⟩ := featureNamed?_eq_some hg
    have hsame := subsumes_antisymm hdomain (hnearest g hgmem hgname hgsub)
    rw [hg, h.eq_of_domain_eq hmem hgmem hsame hgname.symm]

/-- A type sees nothing under a name if neither it nor a type above it declares one. -/
theorem featureNamed?_eq_none_iff (h : ts.Consistent) {t : TypeId} {name : String} :
    ts.featureNamed? t name = none ↔
      ∀ f ∈ ts.features, f.name = name → ¬ ts.subsumes f.domain t = true := by
  constructor
  · rintro hnone f hf rfl hsub
    obtain ⟨g, hg, -⟩ := exists_featureNamed?_of_subsumes hsub (h.featureNamed?_domain hf)
    rw [hnone] at hg
    cases hg
  · intro hall
    cases hf : ts.featureNamed? t name with
    | none => rfl
    | some f =>
        obtain ⟨hmem, hname, hsub, -⟩ := featureNamed?_eq_some hf
        exact absurd hsub (hall f hmem hname)

end Consistent

end AnnotatedText.TypeSystem

import AnnotatedText.Proofs.TypeSystem.Hierarchy

/-!
# Type systems with look-up tables

A type system can be kept with tables: one that leads from names to types, and for each type one that
leads from names to the features that it declares itself. Each declaration then has several places to
bring up to date, and a loop that goes up from a type takes what stands at a place without asking
whether it leads to a place that is there, or ever to an end. `TypeTables` is a type system kept in
this way, in which a loop is undefined as soon as it leaves the types or takes more rounds than it is
given.

After every history of declarations the tables say what the type system without tables says,
`TypeTables.Indexes`, and every loop from a type that is there is defined: it ends within as many
rounds as there are types up to that type.

## Main results

* `TypeTables.Indexes.climb_eq`: a loop upward ends, and looks at the types above in order.
* `TypeTables.Indexes.declare`: a declaration brings all tables up to date, or changes nothing.
* `TypeSystem.tree_after_any_history`: what holds of types, features and tables after every history.
-/

namespace AnnotatedText

/-- A type with the table of its own features. What was put into a table last stands first. -/
structure TypeRow where
  name : String
  parent? : Option TypeId
  own : List (String × FeatureId)
  deriving DecidableEq

/-- A type system that is kept with tables. -/
structure TypeTables where
  rows : List TypeRow
  features : List Feature
  byName : List (String × TypeId)
  deriving DecidableEq

namespace TypeTables

/-- The tables of the root type alone. -/
def root : TypeTables :=
  ⟨[⟨TypeSystem.rootName, none, []⟩], [], [(TypeSystem.rootName, TypeSystem.rootType)]⟩

/-- The first answer that a type gives on the way up; undefined if the way leads out of the types or
takes more rounds than `rounds`. -/
def climb {α : Type} (T : TypeTables) (answer? : TypeId → TypeRow → Option α) :
    Nat → Option TypeId → Option (Option α)
  | _, none => some none
  | 0, some _ => none
  | rounds + 1, some t => do
    let row ← T.rows[t.index]?
    match answer? t row with
    | some a => return some a
    | none => T.climb answer? rounds row.parent?

/-- Whether `sup` is met on the way up from `sub`. -/
def subsumes (T : TypeTables) (rounds : Nat) (sup sub : TypeId) : Option Bool :=
  (T.climb (fun t _ => if t = sup then some () else none) rounds (some sub)).map Option.isSome

/-- The first feature of the given name that is met on the way up. -/
def featureNamed? (T : TypeTables) (rounds : Nat) (t : TypeId) (name : String) :
    Option (Option Feature) := do
  match ← T.climb (fun _ row => row.own.lookup name) rounds (some t) with
  | none => return none
  | some id =>
    let f ← T.features[id.index]?
    return some f

/-- Whether there is a row at the place of a type. -/
def hasType (T : TypeTables) (t : TypeId) : Bool := decide (t.index < T.rows.length)

/-- Declares a type, and puts it under its name. -/
def declareType (T : TypeTables) (name parent : String) :
    Except DeclarationError TypeId × TypeTables :=
  if (T.byName.lookup name).isSome then (.error (.duplicateType name), T)
  else match T.byName.lookup parent with
    | none => (.error (.unknownParent parent), T)
    | some p =>
      if T.rows.length < placeLimit then
        let id : TypeId := ⟨T.rows.length⟩
        (.ok id,
          { T with rows := T.rows ++ [⟨name, some p, []⟩], byName := (name, id) :: T.byName })
      else (.error .noPlace, T)

/-- Declares a feature, and puts it under its name with the type that declares it. The names above
are looked through in at most as many rounds as there are types. -/
def declareFeature (T : TypeTables) (t : TypeId) (name : String) (range : Range) :
    Option (Except DeclarationError FeatureId × TypeTables) :=
  if !T.hasType t then some (.error .unknownType, T)
  else if range.mentioned?.any (!T.hasType ·) then some (.error .unknownRange, T)
  else do
    let owner? ← T.climb (fun _ row => if (row.own.lookup name).isSome then some row.name else none)
      T.rows.length (some t)
    match owner? with
    | some owner => return (.error (.duplicateFeature name owner), T)
    | none =>
      if T.features.length < placeLimit then
        let id : FeatureId := ⟨T.features.length⟩
        return (.ok id, { T with
          features := T.features ++ [⟨id, name, t, range⟩]
          rows := T.rows.modify t.index fun row => { row with own := (name, id) :: row.own } })
      else return (.error .noPlace, T)

/-- One more declaration: why it is refused or the place of what is declared, and the tables that it
leaves behind. -/
def declare (T : TypeTables) : Declaration → Option (Except DeclarationError Nat × TypeTables)
  | .type name parent =>
    let (outcome, more) := T.declareType name parent
    some (outcome.map TypeId.index, more)
  | .feature owner name range =>
    (T.declareFeature owner name range).map fun (outcome, more) =>
      (outcome.map FeatureId.index, more)

/-- The tables that a history of declarations leaves behind. -/
def declareAll (T : TypeTables) : List Declaration → Option TypeTables
  | [] => some T
  | d :: rest => do
    let (_, more) ← T.declare d
    more.declareAll rest

end TypeTables

/-- The place that a declaration gets, or why it is refused. -/
def TypeSystem.outcome (ts : TypeSystem) : Declaration → Except DeclarationError Nat
  | .type name parent => (ts.declareType name parent).map fun p => p.2.index
  | .feature owner name range => (ts.declareFeature owner name range).map fun p => p.2.index

/-- A refused declaration leaves the type system as it is. -/
theorem TypeSystem.declareAll_of_outcome_error {ts : TypeSystem} {d : Declaration}
    {e : DeclarationError} (h : ts.outcome d = .error e) : ts.declareAll [d] = ts := by
  cases d with
  | type name parent =>
      rw [declareAll, declare]
      rw [outcome] at h
      cases hd : ts.declareType name parent with
      | error _ => rfl
      | ok _ => rw [hd] at h; cases h
  | feature owner name range =>
      rw [declareAll, declare]
      rw [outcome] at h
      cases hd : ts.declareFeature owner name range with
      | error _ => rfl
      | ok _ => rw [hd] at h; cases h

namespace TypeTables

/-- The tables **say what a type system says**: of each type its name, the type above and its own
features by their names, of each name the type that has it. -/
structure Indexes (T : TypeTables) (ts : TypeSystem) : Prop where
  length_eq : T.rows.length = ts.types.length
  row_eq : ∀ t row, T.rows[t.index]? = some row →
    row.name = ts.typeName t ∧ row.parent? = ts.parent? t ∧
      ∀ name, row.own.lookup name = (ts.ownFeature? t name).map Feature.id
  features_eq : T.features = ts.features
  lookup_eq : ∀ name, T.byName.lookup name = ts.typeNamed? name

namespace Indexes

variable {T : TypeTables} {ts : TypeSystem}

/-! ### Loops upward -/

theorem hasType_eq (h : T.Indexes ts) (t : TypeId) : T.hasType t = ts.hasType t := by
  rw [hasType, h.length_eq, TypeSystem.hasType]

/-- A type that is there has a row. -/
theorem exists_row (h : T.Indexes ts) {t : TypeId} (ht : ts.hasType t = true) :
    ∃ row, T.rows[t.index]? = some row :=
  ⟨_, List.getElem?_eq_getElem (h.length_eq ▸ TypeSystem.hasType_iff.mp ht)⟩

/-- **A loop upward from a type that is there ends**, within as many rounds as there are types up to
it, and asks the type and those above it in order. -/
theorem climb_eq (h : T.Indexes ts) (hts : ts.Hierarchical) {α : Type}
    {answer? : TypeId → TypeRow → Option α} {g : TypeId → Option α}
    (hg : ∀ t row, T.rows[t.index]? = some row → answer? t row = g t) {rounds : Nat} {t : TypeId}
    (ht : ts.hasType t = true) (hlt : t.index < rounds) :
    T.climb answer? rounds (some t) = some ((ts.lineage t).findSome? g) := by
  induction rounds generalizing t with
  | zero => exact absurd hlt (Nat.not_lt_zero _)
  | succ rounds ih =>
      obtain ⟨row, hrow⟩ := h.exists_row ht
      obtain ⟨-, hparent, -⟩ := h.row_eq t row hrow
      obtain ⟨above, habove⟩ := ts.exists_lineage_eq_cons t
      rw [climb, hrow, Option.bind_eq_bind, Option.bind_some, hg t row hrow]
      cases hanswer : g t with
      | some a =>
          rw [habove, List.findSome?_cons, hanswer]
          rfl
      | none =>
          cases hp : ts.parent? t with
          | none =>
              rw [hparent, hp, TypeSystem.lineage_of_parent?_eq_none hp, climb,
                List.findSome?_cons, hanswer, List.findSome?_nil]
          | some p =>
              have hbefore := hts.parent_lt hp
              rw [hparent, hp, hts.lineage_of_parent?_eq_some hp, List.findSome?_cons, hanswer]
              exact ih (hts.hasType_parent hp) (by omega)

/-- **The search for a type above ends** with the right answer. -/
theorem subsumes_eq (h : T.Indexes ts) (hts : ts.Hierarchical) {rounds : Nat} {sub : TypeId}
    (hsub : ts.hasType sub = true) (hlt : sub.index < rounds) (sup : TypeId) :
    T.subsumes rounds sup sub = some (ts.subsumes sup sub) := by
  have hclimb : T.climb (fun u _ => if u = sup then some () else none) rounds (some sub) =
      some ((ts.lineage sub).findSome? fun u => if u = sup then some () else none) := by
    refine h.climb_eq hts ?_ hsub hlt
    intro u row _
    rfl
  rw [subsumes, hclimb, Option.map_some, TypeSystem.subsumes]
  congr 1
  rw [Bool.eq_iff_iff]
  simp

/-- **The search for a feature ends** with the one that the type sees. -/
theorem featureNamed?_eq (h : T.Indexes ts) (hts : ts.Hierarchical) (hc : ts.Consistent)
    {rounds : Nat} {t : TypeId} (ht : ts.hasType t = true) (hlt : t.index < rounds)
    (name : String) :
    T.featureNamed? rounds t name = some (ts.featureNamed? t name) := by
  have hown : ∀ t row, T.rows[t.index]? = some row →
      row.own.lookup name = (ts.ownFeature? t name).map Feature.id :=
    fun t row hrow => (h.row_eq t row hrow).2.2 name
  rw [featureNamed?, h.climb_eq hts hown ht hlt]
  have hmap : (ts.lineage t).findSome? (fun u => (ts.ownFeature? u name).map Feature.id) =
      (ts.featureNamed? t name).map Feature.id := (List.map_findSome? ..).symm
  rw [hmap]
  cases hf : ts.featureNamed? t name with
  | none => rfl
  | some f =>
      have hfound := hc.feature?_id (TypeSystem.featureNamed?_eq_some hf).1
      rw [TypeSystem.feature?, ← h.features_eq] at hfound
      simp [hfound]

/-- The search for a type above that declares a name ends with the lowest one. -/
theorem climb_owner_eq (h : T.Indexes ts) (hts : ts.Hierarchical) {t : TypeId}
    (ht : ts.hasType t = true) (name : String) :
    T.climb (fun _ row => if (row.own.lookup name).isSome then some row.name else none)
        T.rows.length (some t) =
      some (((ts.lineage t).find? fun u => (ts.ownFeature? u name).isSome).map ts.typeName) := by
  have hclimb : T.climb (fun _ row => if (row.own.lookup name).isSome then some row.name else none)
      T.rows.length (some t) = some ((ts.lineage t).findSome? fun u =>
        if (ts.ownFeature? u name).isSome then some (ts.typeName u) else none) := by
    refine h.climb_eq hts ?_ ht (h.length_eq ▸ TypeSystem.hasType_iff.mp ht)
    intro u row hrow
    obtain ⟨hname, -, hown⟩ := h.row_eq u row hrow
    rw [hown, hname, Option.isSome_map]
  rw [hclimb]
  congr 1
  induction ts.lineage t with
  | nil => rfl
  | cons u above ih =>
      rw [List.findSome?_cons, List.find?_cons]
      cases hu : (ts.ownFeature? u name).isSome with
      | true => rfl
      | false => exact ih

/-! ### Declarations -/

/-- A further type gets a row of its own, and its name leads to it. -/
theorem addType (h : T.Indexes ts) (hc : ts.Consistent) {name : String} {p : TypeId}
    (hname : ts.typeNamed? name = none) :
    Indexes ⟨T.rows ++ [⟨name, some p, []⟩], T.features, (name, ⟨T.rows.length⟩) :: T.byName⟩
      ⟨ts.types ++ [⟨name, some p⟩], ts.features⟩ := by
  refine ⟨?_, fun t row hrow => ?_, h.features_eq, fun k => ?_⟩
  · show (T.rows ++ [_]).length = (ts.types ++ [_]).length
    rw [List.length_append, List.length_append, h.length_eq]
    rfl
  · rcases TypeSystem.getElem?_concat_eq_some hrow with hrow | ⟨hlast, rfl⟩
    · obtain ⟨hrowname, hparent, hown⟩ := h.row_eq t row hrow
      have hlt : t.index < ts.types.length :=
        h.length_eq ▸ (List.getElem?_eq_some_iff.mp hrow).1
      refine ⟨?_, ?_, hown⟩
      · rw [hrowname, TypeSystem.typeName, TypeSystem.typeName, List.getElem?_append_left hlt]
      · rw [hparent, TypeSystem.parent?, TypeSystem.parent?, List.getElem?_append_left hlt]
    · have hentry : (ts.types ++ [(⟨name, some p⟩ : TypeEntry)])[t.index]? =
          some ⟨name, some p⟩ := by
        rw [hlast, h.length_eq, List.getElem?_concat_length]
      refine ⟨?_, ?_, fun k => ?_⟩
      · rw [TypeSystem.typeName, hentry]
      · rw [TypeSystem.parent?, hentry, Option.bind_some]
      -- nothing is declared on a type that was not there
      · have hnone : ts.ownFeature? t k = none := by
          cases hf : ts.ownFeature? t k with
          | none => rfl
          | some f =>
              obtain ⟨hmem, rfl, -⟩ := TypeSystem.ownFeature?_eq_some hf
              have hlt := TypeSystem.hasType_iff.mp (hc.domain_declared f hmem)
              rw [hlast, h.length_eq] at hlt
              exact absurd hlt (Nat.lt_irrefl _)
        show none = (ts.ownFeature? t k).map Feature.id
        rw [hnone, Option.map_none]
  · have hfound : TypeSystem.typeNamed? ⟨ts.types ++ [⟨name, some p⟩], ts.features⟩ k =
        (ts.typeNamed? k).or (if name = k then some ⟨ts.types.length⟩ else none) := by
      rw [TypeSystem.typeNamed?, TypeSystem.typeNamed?, List.findIdx?_append, List.findIdx?_singleton]
      cases List.findIdx? (fun e => e.name == k) ts.types with
      | some i => rfl
      | none => by_cases hk : name = k <;> simp [hk]
    rw [hfound]
    by_cases hk : name = k
    · subst hk
      rw [hname, if_pos rfl, List.lookup_cons_self, h.length_eq]
      rfl
    · rw [if_neg hk, Option.or_none, ← h.lookup_eq k, List.lookup_cons]
      simp [beq_eq_false_iff_ne.mpr (Ne.symm hk)]

/-- A further feature is put under its name on its domain, and nowhere else. -/
theorem addFeature (h : T.Indexes ts) {t : TypeId} {name : String}
    (hnew : ts.ownFeature? t name = none) (id : FeatureId) (range : Range) :
    Indexes ⟨T.rows.modify t.index fun row => { row with own := (name, id) :: row.own },
        T.features ++ [⟨id, name, t, range⟩], T.byName⟩
      ⟨ts.types, ts.features ++ [⟨id, name, t, range⟩]⟩ := by
  refine ⟨?_, fun u row hrow => ?_, ?_, h.lookup_eq⟩
  · rw [List.length_modify]
    exact h.length_eq
  · have hown (k : String) :
        TypeSystem.ownFeature? ⟨ts.types, ts.features ++ [⟨id, name, t, range⟩]⟩ u k =
          (ts.ownFeature? u k).or (if t = u ∧ name = k then some ⟨id, name, t, range⟩ else none) := by
      rw [TypeSystem.ownFeature?, List.find?_append, TypeSystem.ownFeature?]
      congr 1
      by_cases hk : t = u ∧ name = k <;> simp [hk]
    rw [List.getElem?_modify] at hrow
    obtain ⟨old, hold, rfl⟩ := Option.map_eq_some_iff.mp hrow
    obtain ⟨hrowname, hparent, holdown⟩ := h.row_eq u old hold
    refine ⟨?_, ?_, fun k => ?_⟩
    · refine Eq.trans ?_ hrowname
      split <;> rfl
    · refine Eq.trans ?_ hparent
      split <;> rfl
    · rw [hown k]
      by_cases hu : t = u
      · subst hu
        by_cases hk : name = k
        · subst hk
          simp [hnew]
        · simp [hk, ← holdown k, List.lookup_cons, beq_eq_false_iff_ne.mpr (Ne.symm hk)]
      · have hne : t.index ≠ u.index := fun heq => hu (congrArg TypeId.mk heq)
        simp [hne, hu, holdown k]
  · rw [h.features_eq]

/-- A type is put under its name, or is refused as it is without tables and changes nothing. -/
theorem declareType (h : T.Indexes ts) (hc : ts.Consistent) (name parent : String) :
    ∃ more, T.declare (.type name parent) = some (ts.outcome (.type name parent), more) ∧
      more.Indexes (ts.declareAll [.type name parent]) ∧
      ∀ e, ts.outcome (.type name parent) = .error e → more = T := by
  rw [TypeTables.declare, TypeTables.declareType, TypeSystem.outcome, TypeSystem.declareAll,
    TypeSystem.declare, TypeSystem.declareType, h.lookup_eq, h.lookup_eq]
  cases hname : ts.typeNamed? name with
  | some t => exact ⟨T, rfl, h, fun _ _ => rfl⟩
  | none =>
      cases hparent : ts.typeNamed? parent with
      | none => exact ⟨T, rfl, h, fun _ _ => rfl⟩
      | some p =>
          have hadded := h.addType hc (p := p) hname
          rw [h.length_eq] at hadded
          by_cases hroom : ts.types.length < placeLimit
          · simp only [h.length_eq, hroom, if_true]
            exact ⟨_, rfl, hadded, fun e he => by cases he⟩
          · simp only [h.length_eq, hroom, if_false]
            exact ⟨T, rfl, h, fun _ _ => rfl⟩

/-- A feature is put under its name on the type that declares it, or is refused as it is without
tables and changes nothing. -/
theorem declareFeature (h : T.Indexes ts) (hts : ts.Hierarchical) (owner : TypeId) (name : String)
    (range : Range) :
    ∃ more, T.declare (.feature owner name range) =
        some (ts.outcome (.feature owner name range), more) ∧
      more.Indexes (ts.declareAll [.feature owner name range]) ∧
      ∀ e, ts.outcome (.feature owner name range) = .error e → more = T := by
  rw [TypeTables.declare, TypeTables.declareFeature, TypeSystem.outcome, TypeSystem.declareAll,
    TypeSystem.declare, TypeSystem.declareFeature]
  simp only [h.hasType_eq]
  cases ht : ts.hasType owner with
  | false => exact ⟨T, rfl, h, fun _ _ => rfl⟩
  | true =>
      cases hr : range.mentioned?.any (!ts.hasType ·) with
      | true => exact ⟨T, rfl, h, fun _ _ => rfl⟩
      | false =>
          rw [h.climb_owner_eq hts ht name]
          cases howner : (ts.lineage owner).find? fun u => (ts.ownFeature? u name).isSome with
          | some u => exact ⟨T, rfl, h, fun _ _ => rfl⟩
          | none =>
              have hnew : ts.ownFeature? owner name = none := by
                simpa using List.find?_eq_none.mp howner owner (ts.self_mem_lineage owner)
              have hadded := h.addFeature hnew ⟨ts.features.length⟩ range
              rw [h.features_eq] at hadded
              by_cases hroom : ts.features.length < placeLimit
              · simp only [h.features_eq, hroom, if_true]
                exact ⟨_, rfl, hadded, fun e he => by cases he⟩
              · simp only [h.features_eq, hroom, if_false]
                exact ⟨T, rfl, h, fun _ _ => rfl⟩

/-- **A declaration brings all tables up to date**, or is refused as it is without tables and changes
nothing. -/
theorem declare (h : T.Indexes ts) (hts : ts.Hierarchical) (hc : ts.Consistent) (d : Declaration) :
    ∃ more, T.declare d = some (ts.outcome d, more) ∧ more.Indexes (ts.declareAll [d]) ∧
      ∀ e, ts.outcome d = .error e → more = T := by
  cases d with
  | type name parent => exact h.declareType hc name parent
  | feature owner name range => exact h.declareFeature hts owner name range

/-- A history brings all tables up to date. -/
theorem declareAll (h : T.Indexes ts) (hts : ts.Hierarchical) (hc : ts.Consistent)
    (ds : List Declaration) :
    ∃ more, T.declareAll ds = some more ∧ more.Indexes (ts.declareAll ds) := by
  induction ds generalizing T ts with
  | nil => exact ⟨T, rfl, h⟩
  | cons d rest ih =>
      obtain ⟨next, hnext, hindexes, -⟩ := h.declare hts hc d
      obtain ⟨more, hmore, hlast⟩ := ih hindexes
        (TypeSystem.declareAll_induction hts (fun _ _ _ h hd => h.declare hd) [d])
        (TypeSystem.declareAll_induction hc (fun _ _ _ h hd => h.declare hd) [d])
      rw [← List.singleton_append, TypeSystem.declareAll_append]
      refine ⟨more, ?_, hlast⟩
      rw [List.singleton_append, TypeTables.declareAll, hnext]
      exact hmore

end Indexes

/-- The tables of the root index it. -/
theorem indexes_root : root.Indexes .root := by
  refine ⟨rfl, fun t row hrow => ?_, rfl, fun name => ?_⟩
  · obtain ⟨hlt, rfl⟩ := List.getElem?_eq_some_iff.mp hrow
    obtain rfl : t = TypeSystem.rootType := congrArg TypeId.mk (Nat.lt_one_iff.mp hlt)
    exact ⟨rfl, rfl, fun _ => rfl⟩
  · by_cases hname : TypeSystem.rootName = name
    · subst hname
      simp [root, TypeSystem.root, TypeSystem.typeNamed?, TypeSystem.rootType]
    · simp [root, TypeSystem.root, TypeSystem.typeNamed?, hname, Ne.symm hname]

end TypeTables

namespace TypeSystem

/-- **The types form a tree**: the root is the only one without one above it, any other one stands
behind the one above it, and a name leads to the type that has it. -/
structure IsTree (ts : TypeSystem) : Prop where
  hasType_root : ts.hasType rootType = true
  parent?_eq_none_iff : ∀ t, ts.hasType t = true → (ts.parent? t = none ↔ t = rootType)
  parent_before : ∀ t p, ts.parent? t = some p → p.index < t.index
  names_distinct : (ts.types.map TypeEntry.name).Nodup
  typeNamed?_eq_some_iff : ∀ name t,
    ts.typeNamed? name = some t ↔ ts.hasType t = true ∧ ts.typeName t = name

/-- **The features are in their places**: each knows its own, mentions types that are there, and is
found under its name on its domain and nowhere else. -/
structure IsCatalogue (ts : TypeSystem) : Prop where
  feature_place : ∀ i (f : Feature), ts.features[i]? = some f → f.id = ⟨i⟩
  domain_declared : ∀ f ∈ ts.features, ts.hasType f.domain = true
  range_declared : ∀ f ∈ ts.features, ∀ u ∈ f.range.mentioned?, ts.hasType u = true
  ownFeature?_eq_some_iff : ∀ t name f,
    ts.ownFeature? t name = some f ↔ f ∈ ts.features ∧ f.domain = t ∧ f.name = name

/-- **Being above is an order** with the root at the top, in which what is above a type is a chain;
it is what steps to the type above make of it. -/
structure IsAncestry (ts : TypeSystem) : Prop where
  iff_reaches : ∀ sup sub, ts.subsumes sup sub = true ↔
    Relation.ReflTransGen (fun t p => ts.parent? t = some p) sub sup
  refl : ∀ t, ts.subsumes t t = true
  antisymm : ∀ a b, ts.subsumes a b = true → ts.subsumes b a = true → a = b
  trans : ∀ a b c, ts.subsumes a b = true → ts.subsumes b c = true → ts.subsumes a c = true
  root_above : ∀ t, ts.hasType t = true → ts.subsumes rootType t = true
  chain : ∀ a b t, ts.subsumes a t = true → ts.subsumes b t = true →
    ts.subsumes a b = true ∨ ts.subsumes b a = true

/-- **After every history of declarations**, refused ones included, the types form a tree and the
features are in their places. The tables say the same, a refused declaration changes nothing, and the
loops from a type that is there upward end without leaving the tables. Being above is an order, and
a type sees the feature of a name that is declared nearest to it, or none if none is declared above. -/
theorem tree_after_any_history (ds : List Declaration) :
    (declared ds).IsTree ∧ (declared ds).IsCatalogue ∧ (declared ds).IsAncestry ∧
    (∃ T, TypeTables.root.declareAll ds = some T ∧ T.Indexes (declared ds) ∧
      (∀ d, ∃ more, T.declare d = some ((declared ds).outcome d, more) ∧
        more.Indexes (declared (ds ++ [d])) ∧
        ∀ e, (declared ds).outcome d = .error e →
          more = T ∧ declared (ds ++ [d]) = declared ds) ∧
      ∀ t, (declared ds).hasType t = true → ∀ rounds, t.index < rounds →
        (∀ sup, T.subsumes rounds sup t = some ((declared ds).subsumes sup t)) ∧
        ∀ name, T.featureNamed? rounds t name = some ((declared ds).featureNamed? t name)) ∧
    (∀ t name f, (declared ds).featureNamed? t name = some f ↔
      f ∈ (declared ds).features ∧ f.name = name ∧ (declared ds).subsumes f.domain t = true ∧
        ∀ g ∈ (declared ds).features, g.name = name → (declared ds).subsumes g.domain t = true →
          (declared ds).subsumes g.domain f.domain = true) ∧
    ∀ t name, (declared ds).featureNamed? t name = none ↔
      ∀ f ∈ (declared ds).features, f.name = name → ¬ (declared ds).subsumes f.domain t = true := by
  have hts := hierarchical_declared ds
  have hc := consistent_declared ds
  obtain ⟨T, hT, hindexes⟩ :=
    TypeTables.indexes_root.declareAll hierarchical_root consistent_root ds
  refine ⟨?_, ?_, ?_, ⟨T, hT, hindexes, fun d => ?_, fun t ht rounds hlt => ?_⟩, ?_, ?_⟩
  · exact ⟨hts.hasType_root, fun _ => hts.parent?_eq_none_iff, fun _ _ => hts.parent_lt,
      hts.names_distinct, fun _ _ => hts.typeNamed?_eq_some_iff⟩
  · exact ⟨hc.feature_place, hc.domain_declared, hts.range_declared,
      fun _ _ _ => hc.ownFeature?_eq_some_iff⟩
  · exact ⟨fun _ _ => hts.subsumes_iff_reaches, subsumes_refl _, fun _ _ => subsumes_antisymm,
      fun _ _ _ => subsumes_trans, fun _ => hts.subsumes_root, fun _ _ _ => subsumes_or_subsumes⟩
  · obtain ⟨more, hmore, hafter, hrefused⟩ := hindexes.declare hts hc d
    have happend : declared (ds ++ [d]) = (declared ds).declareAll [d] :=
      declareAll_append root ds [d]
    refine ⟨more, hmore, happend ▸ hafter, fun e he => ⟨hrefused e he, happend.trans ?_⟩⟩
    exact declareAll_of_outcome_error he
  · exact ⟨hindexes.subsumes_eq hts ht hlt, hindexes.featureNamed?_eq hts hc ht hlt⟩
  · exact fun _ _ _ => hc.featureNamed?_eq_some_iff
  · exact fun _ _ => hc.featureNamed?_eq_none_iff

end TypeSystem

end AnnotatedText

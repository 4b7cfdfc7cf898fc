import AnnotatedText.Document
import AnnotatedText.Path.Basic

/-!
# Walks along feature paths

A walk follows a feature path from an annotation through the values of its features, depth first and
from left to right. At each end of the path it shows what is there to a visitor, who may end it; a
value in the way that is neither a reference nor an array makes it fail. A value that is missing, an
index out of range and a name that the annotation's type does not know end a branch without a word.

Two questions are asked of a walk. `collect` gathers the annotations at which the branches end;
`select` keeps the roots of which some observation satisfies a predicate, and asks no further once
one does. In a selection the feature of the last segment is always the end of a branch, so that its
value itself can be observed.

All that there is to meet on a path, in the order of the walk, is the list `encounters`.

## Main results

* `walk_eq_anyM`: a walk shows its visitor the encounters in order, up to the first fault or the
  first one at which the visitor ends it.
* `collect_eq`: collecting gives the holders of all observations, unless a fault is among the
  encounters.
* `run_consult`: a selection puts its predicate to the observations of a root up to the first one
  that satisfies it.
-/

namespace AnnotatedText

/-- What is seen at the end of a branch. -/
inductive Observation where
  | text (s : String)
  | value (v : Value)
  /-- A feature without a value, or an array without an element at the index. -/
  | missing

namespace Observation

/-- The string observed: a covered text or a string value. -/
def string? : Observation → Option String
  | text s | value (.scalar (.string s)) => some s
  | _ => none

/-- The whole number observed. -/
def integer? : Observation → Option Int32
  | value (.scalar (.integer i)) => some i
  | _ => none

/-- The truth value observed. -/
def boolean? : Observation → Option Bool
  | value (.scalar (.boolean b)) => some b
  | _ => none

/-- The double observed; a whole number counts as one. -/
def double? : Observation → Option Binary64
  | value (.scalar (.double d)) => some d
  | value (.scalar (.integer i)) => some (Binary64.ofInt i.toInt)
  | _ => none

end Observation

/-- A value in the way of a walk: the type of its annotation, its feature and its kind. -/
structure WalkError where
  typeName : String
  feature : String
  valueKind : String
  deriving DecidableEq

/-- The wording of the error. -/
def WalkError.message (e : WalkError) : String :=
  "WalkTypeError: " ++ e.valueKind ++ " value of " ++ e.typeName ++ ":" ++ e.feature ++
    " is not supported in a feature path"

/-- What a walk is for. -/
inductive WalkMode where
  | collecting
  | selecting
  deriving DecidableEq

/-- Where a segment leads from an annotation. -/
inductive Access where
  | nowhere
  | text
  | feature (feature : Feature) (index? : Option Nat)

/-- Where an unbound segment leads on a type. The covered text is reached by its short name only at
the end of the path and without an index. -/
def Access.ofName (ts : TypeSystem) (type : TypeId) (name : String) (index? : Option Nat)
    (isLast : Bool) : Access :=
  match ts.featureNamed? type name with
  | some f => feature f index?
  | none => if name = coveredTextShortName ∧ index? = none ∧ isLast then text else nowhere

/-- Where a segment leads from an annotation. -/
def Segment.access (ts : TypeSystem) (a : Annotation) (isLast : Bool) : Segment → Access
  | .coveredText => .text
  | .named _ f =>
    match ts.feature? f with
    | some feature => .feature feature none
    | none => .nowhere
  | .indexed _ f i =>
    match ts.feature? f with
    | some feature => .feature feature (some i)
    | none => .nowhere
  | .unbound name index? => .ofName ts a.type name index? isLast

/-- What is seen of a value: itself, or its element if it is an array and there is an index. -/
def Observation.ofValue? : Option Value → Option Nat → Observation
  | some (.array items), some i =>
    match items[i]? with
    | some v => value v
    | none => missing
  | some v, _ => value v
  | none, _ => missing

/-- The annotations that a value leads to; none can be told for a scalar. -/
def Value.targets? : Value → Option Nat → Option (List AnnotationId)
  | reference id, _ => some [id]
  | array items, some i => some ((items[i]?.bind reference?).toList)
  | array items, none => some (items.filterMap reference?)
  | scalar _, _ => none

/-- A walk in progress, in which a visitor keeps notes of type `σ`. -/
abbrev Walk (σ : Type) := ExceptT WalkError (StateM σ)

/-- Walks along the segments from an annotation. The visitor answers whether the walk may end; so
does the walk. -/
def walk {σ : Type} (ts : TypeSystem) (doc : Document) (mode : WalkMode)
    (visit : Annotation → Observation → StateM σ Bool) : List Segment → Annotation → Walk σ Bool
  | [], a => ExceptT.lift (visit a (.text (doc.coveredText a)))
  | segment :: tail, a =>
    match segment.access ts a tail.isEmpty with
    | .nowhere => return false
    | .text => ExceptT.lift (visit a (.text (doc.coveredText a)))
    | .feature f index? =>
      if f.range.isScalar ∨ (mode = .selecting ∧ tail.isEmpty) then
        ExceptT.lift (visit a (.ofValue? (a.value? f.id) index?))
      else match a.value? f.id with
        | none => return false
        | some v =>
          match v.targets? index? with
          | none => throw ⟨ts.typeName a.type, f.name, v.kindName⟩
          | some ids => (ids.filterMap doc.find?).anyM (walk ts doc mode visit tail)

/-! ### Collecting -/

/-- Puts an annotation at its place among others that are in order, unless it is there. -/
def insertOrdered (a : Annotation) : List Annotation → List Annotation
  | [] => [a]
  | b :: rest =>
    match a.compare b with
    | .lt => a :: b :: rest
    | .eq => b :: rest
    | .gt => b :: insertOrdered a rest

/-- The annotations in order, each once. -/
def inOrder (as : List Annotation) : List Annotation :=
  as.foldl (fun found a => insertOrdered a found) []

/-- Notes the holder of each observation. -/
def gather (a : Annotation) (_ : Observation) : StateM (List Annotation) Bool :=
  fun found => (false, insertOrdered a found)

/-- The annotations at the ends of a path from the roots, in order and each once. Roots that do not
exist are passed over. -/
def collect (ts : TypeSystem) (doc : Document) (roots : List AnnotationId) (path : List Segment) :
    Except WalkError (List Annotation) :=
  let walks := (roots.filterMap doc.find?).anyM (walk ts doc .collecting gather path)
  match walks.run.run [] with
  | (.error e, _) => .error e
  | (.ok _, found) => .ok found

/-! ### Selecting -/

/-- A question put to a predicate, and its answer. -/
structure Consultation where
  holder : Annotation
  observation : Observation
  answer : Bool

/-- Puts a predicate to each observation, and ends the walk once it is satisfied. The last question
is noted first. -/
def consult (q : Observation → Annotation → Bool) (a : Annotation) (o : Observation) :
    StateM (List Consultation) Bool :=
  fun asked => (q o a, ⟨a, o, q o a⟩ :: asked)

/-- A selection: the questions asked, and the roots selected or the error that ended it. -/
structure Selection where
  asked : List Consultation
  outcome : Except WalkError (List Annotation)

/-- The roots that satisfy a predicate at the ends of a path, in order and each once. Roots that do
not exist are passed over. -/
def select (ts : TypeSystem) (doc : Document) (roots : List AnnotationId) (path : List Segment)
    (q : Observation → Annotation → Bool) : Selection :=
  let walks := (roots.filterMap doc.find?).filterM (walk ts doc .selecting (consult q) path)
  let (outcome, asked) := walks.run.run []
  ⟨asked.reverse, outcome.map inOrder⟩

/-! ### What there is to meet -/

/-- What a walk meets. -/
inductive Encounter where
  | observed (holder : Annotation) (observation : Observation)
  | failed (error : WalkError)

/-- What there is to meet along the segments from an annotation on, in the order of the walk. -/
def encounters (ts : TypeSystem) (doc : Document) (mode : WalkMode) :
    List Segment → Annotation → List Encounter
  | [], a => [.observed a (.text (doc.coveredText a))]
  | segment :: tail, a =>
    match segment.access ts a tail.isEmpty with
    | .nowhere => []
    | .text => [.observed a (.text (doc.coveredText a))]
    | .feature f index? =>
      if f.range.isScalar ∨ (mode = .selecting ∧ tail.isEmpty) then
        [.observed a (.ofValue? (a.value? f.id) index?)]
      else match a.value? f.id with
        | none => []
        | some v =>
          match v.targets? index? with
          | none => [.failed ⟨ts.typeName a.type, f.name, v.kindName⟩]
          | some ids =>
            (ids.filterMap doc.find?).flatMap fun next => encounters ts doc mode tail next

/-- What an encounter does to a walk. -/
def Encounter.meet {σ : Type} (visit : Annotation → Observation → StateM σ Bool) :
    Encounter → Walk σ Bool
  | observed a o => ExceptT.lift (visit a o)
  | failed e => throw e

/-- The holders of the observations, unless there is a fault. -/
def holders : List Encounter → Except WalkError (List Annotation)
  | [] => .ok []
  | .failed e :: _ => .error e
  | .observed a _ :: rest => (holders rest).map (a :: ·)

/-- The questions that are put to a predicate on meeting the encounters, and whether one of them
satisfies it, unless there is a fault before. -/
def consultations (q : Observation → Annotation → Bool) :
    List Encounter → List Consultation × Except WalkError Bool
  | [] => ([], .ok false)
  | .failed e :: _ => ([], .error e)
  | .observed a o :: rest =>
    if q o a then ([⟨a, o, true⟩], .ok true)
    else
      let (asked, outcome) := consultations q rest
      (⟨a, o, false⟩ :: asked, outcome)

/-- Going through a list of one is going to that one. -/
theorem anyM_singleton {m : Type → Type} [Monad m] [LawfulMonad m] {α : Type} (p : α → m Bool)
    (x : α) : [x].anyM p = p x := by
  rw [List.anyM_cons]
  conv => rhs; rw [← bind_pure (p x)]
  congr 1
  funext found
  cases found <;> rfl

/-- Going through two lists in turn is going through the one list that they make. -/
theorem anyM_append {m : Type → Type} [Monad m] [LawfulMonad m] {α : Type} (p : α → m Bool)
    (xs ys : List α) :
    (xs ++ ys).anyM p = xs.anyM p >>= fun found => if found then pure true else ys.anyM p := by
  induction xs with
  | nil => simp
  | cons x xs ih =>
    simp only [List.cons_append, List.anyM_cons, bind_assoc, ih]
    congr 1
    funext found
    cases found <;> simp

/-- Going through lists in turn is going through the one list that they make. -/
theorem anyM_flatMap {m : Type → Type} [Monad m] [LawfulMonad m] {α β : Type} (p : β → m Bool)
    (f : α → List β) (xs : List α) :
    (xs.flatMap f).anyM p = xs.anyM fun x => (f x).anyM p := by
  induction xs with
  | nil => simp
  | cons x xs ih =>
    rw [List.flatMap_cons, anyM_append, List.anyM_cons, ih]

/-- A walk shows its visitor the encounters in order, up to the first fault or the first one at
which the visitor ends it. -/
theorem walk_eq_anyM {σ : Type} (ts : TypeSystem) (doc : Document) (mode : WalkMode)
    (visit : Annotation → Observation → StateM σ Bool) (path : List Segment) (a : Annotation) :
    walk ts doc mode visit path a =
      (encounters ts doc mode path a).anyM (Encounter.meet visit) := by
  induction path generalizing a with
  | nil => rw [encounters, anyM_singleton, walk, Encounter.meet]
  | cons segment tail ih =>
    unfold walk encounters
    repeat' split
    all_goals simp only [Encounter.meet, anyM_singleton, anyM_flatMap, List.anyM_nil, ← funext ih]

/-- An observation is shown to the visitor, and what comes after it is met if the visitor does not
end the walk. -/
theorem run_meet_observed {σ : Type} (visit : Annotation → Observation → StateM σ Bool)
    (a : Annotation) (o : Observation) (rest : List Encounter) (notes : σ) :
    ((Encounter.observed a o :: rest).anyM (Encounter.meet visit)).run.run notes =
      match visit a o notes with
      | (true, notes) => (.ok true, notes)
      | (false, notes) => (rest.anyM (Encounter.meet visit)).run.run notes := by
  rcases h : visit a o notes with ⟨_ | _, after⟩ <;>
    simp [Encounter.meet, ExceptT.run, ExceptT.lift, ExceptT.mk, ExceptT.bind, ExceptT.bindCont,
      bind, StateT.run, StateT.bind, Functor.map, StateT.map, h] <;> rfl

/-- On meeting encounters, a gathering visitor puts the holders of the observations in order among
those that it has noted, unless there is a fault. -/
theorem run_gather (es : List Encounter) (found : List Annotation) :
    (match ((es.anyM (Encounter.meet gather)).run.run found : Except WalkError Bool × _) with
      | (.error e, _) => .error e
      | (.ok _, found) => .ok found) =
      (holders es).map (·.foldl (fun found a => insertOrdered a found) found) := by
  induction es generalizing found with
  | nil => rfl
  | cons e rest ih =>
    cases e with
    | failed e => rfl
    | observed a o =>
      refine (ih (insertOrdered a found)).trans ?_
      simp only [holders]
      cases holders rest <;> rfl

/-- Collecting gives the holders of all observations, in order and each once, unless a fault is
among the encounters. -/
theorem collect_eq (ts : TypeSystem) (doc : Document) (roots : List AnnotationId)
    (path : List Segment) :
    collect ts doc roots path =
      (holders ((roots.filterMap doc.find?).flatMap
        (encounters ts doc .collecting path))).map inOrder := by
  unfold collect
  rw [funext (walk_eq_anyM ts doc .collecting gather path), ← anyM_flatMap]
  exact run_gather _ []

/-- A visitor that consults a predicate puts it to the observations up to the first one that
satisfies it. -/
theorem run_consult (q : Observation → Annotation → Bool) (es : List Encounter)
    (asked : List Consultation) :
    (es.anyM (Encounter.meet (consult q))).run.run asked =
      ((consultations q es).2, (consultations q es).1.reverse ++ asked) := by
  induction es generalizing asked with
  | nil => rfl
  | cons e rest ih =>
    cases e with
    | failed e => rfl
    | observed a o =>
      rw [run_meet_observed, consultations]
      cases h : q o a <;> simp [consult, h, ih]

end AnnotatedText

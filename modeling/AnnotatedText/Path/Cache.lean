import AnnotatedText.Path.Resolution

/-!
# Cached resolution

A cache holds the feature paths that were resolved through it, under the start and the writing they
were resolved from. What it holds is never replaced, and a path that cannot be resolved leaves it as
it was.
-/

namespace AnnotatedText

/-- What a path is resolved from. -/
structure PathKey where
  start? : Option TypeId
  path : String
  deriving DecidableEq

/-- The paths resolved so far, the last one first. -/
structure PathCache where
  entries : List (PathKey × FeaturePath)
  deriving DecidableEq

namespace PathCache

/-- The cache that holds nothing. -/
def empty : PathCache := ⟨[]⟩

/-- The path held under a key. -/
def find? (cache : PathCache) (key : PathKey) : Option FeaturePath :=
  (cache.entries.find? (·.1 == key)).map Prod.snd

/-- The number of paths held. -/
def size (cache : PathCache) : Nat := cache.entries.length

/-- Resolves through the cache. -/
def resolve (cache : PathCache) (ts : TypeSystem) (key : PathKey) :
    Except ResolutionError FeaturePath × PathCache :=
  match cache.find? key with
  | some path => (.ok path, cache)
  | none =>
    match FeaturePath.resolvePath ts key.start? key.path with
    | .error e => (.error e, cache)
    | .ok path => (.ok path, ⟨(key, path) :: cache.entries⟩)

end PathCache

end AnnotatedText

import AnnotatedText.Path.Cache
import Mathlib.Data.List.Dedup

/-!
# What a cache of paths holds

A cache never shows: through it every call answers as the resolution itself does, whatever was asked
before. What it holds is told by the calls alone. `PathCache.ofCalls` is the cache that calls leave
behind, written down without any run: of every call that can be resolved its path, under what it was
resolved from, each once. One more call turns the cache of some calls into the cache of those calls
and this one, `PathCache.ofCalls_resolve`, and from there any number of calls does.

That a held path is never replaced has two readings. No call takes an entry away or changes it, so
the entries of a history are the last ones of every longer history. And where a path is offered for a
key that has one already, `PathCache.hold`, the offered one is dropped.

## Main results

* `PathCache.ofCalls_resolveAll`: what a run of calls answers and leaves behind.
* `PathCache.find?_ofCalls_eq_some_iff`, `PathCache.nodup_keys_ofCalls`, `PathCache.size_ofCalls`:
  what is held after some calls.
* `PathCache.transparent_after_any_calls`: every history of calls, from the empty cache on.
-/

namespace AnnotatedText

/-- The resolution of a key, as it is without a cache. -/
def PathKey.resolve (ts : TypeSystem) (key : PathKey) : Except ResolutionError FeaturePath :=
  FeaturePath.resolvePath ts key.start? key.path

/-- The entry that a key makes, if it can be resolved. -/
def PathKey.held? (ts : TypeSystem) (key : PathKey) : Option (PathKey × FeaturePath) :=
  (key.resolve ts).toOption.map (key, ·)

/-- The entry held for a key is the key with its resolution. -/
theorem PathKey.held?_eq_some_iff {ts : TypeSystem} {key : PathKey}
    {entry : PathKey × FeaturePath} :
    key.held? ts = some entry ↔ key = entry.1 ∧ key.resolve ts = .ok entry.2 := by
  obtain ⟨key', path⟩ := entry
  rw [held?]
  cases key.resolve ts <;> simp [Except.toOption]

namespace PathCache

variable {ts : TypeSystem}

/-! ### Look-ups -/

/-- What is found in the cache is one of its entries. -/
theorem mem_entries_of_find? {cache : PathCache} {key : PathKey} {path : FeaturePath}
    (h : cache.find? key = some path) : (key, path) ∈ cache.entries := by
  obtain ⟨entry, hfind, rfl⟩ := Option.map_eq_some_iff.mp h
  obtain rfl : entry.1 = key := by simpa using List.find?_some hfind
  exact List.mem_of_find?_eq_some hfind

/-- An entry of the cache is found, or one in front of it with the same key. -/
theorem exists_find?_of_mem {cache : PathCache} {key : PathKey} {path : FeaturePath}
    (h : (key, path) ∈ cache.entries) : ∃ held, cache.find? key = some held := by
  obtain ⟨entry, hfind⟩ := Option.isSome_iff_exists.mp
    (List.find?_isSome (p := (·.1 == key)) |>.mpr ⟨_, h, beq_self_eq_true key⟩)
  exact ⟨entry.2, by rw [find?, hfind, Option.map_some]⟩

/-! ### Calls one after the other -/

/-- Holds a path under a key that has none, and is what the key has then. -/
def hold (cache : PathCache) (key : PathKey) (path : FeaturePath) : FeaturePath × PathCache :=
  match cache.find? key with
  | some held => (held, cache)
  | none => (path, ⟨(key, path) :: cache.entries⟩)

/-- Resolves one key after the other through the cache: the answers, and the cache at the end. -/
def resolveAll (cache : PathCache) (ts : TypeSystem) :
    List PathKey → List (Except ResolutionError FeaturePath) × PathCache
  | [] => ([], cache)
  | key :: rest =>
    let answer := cache.resolve ts key
    let others := answer.2.resolveAll ts rest
    (answer.1 :: others.1, others.2)

/-- Holding a path for a key that has one changes nothing. -/
theorem hold_of_find? {cache : PathCache} {key : PathKey} {held : FeaturePath}
    (h : cache.find? key = some held) (path : FeaturePath) :
    cache.hold key path = (held, cache) := by
  rw [hold, h]

/-- **What a call is made of**: what is held is the answer, and otherwise a path that is resolved is
held before it is answered. -/
theorem resolve_eq_hold (cache : PathCache) (key : PathKey) :
    cache.resolve ts key = match cache.find? key with
      | some held => (.ok held, cache)
      | none => match key.resolve ts with
        | .error e => (.error e, cache)
        | .ok path => (.ok (cache.hold key path).1, (cache.hold key path).2) := by
  rw [resolve, ← PathKey.resolve]
  cases hfind : cache.find? key with
  | some held => rfl
  | none =>
    cases key.resolve ts with
    | error e => rfl
    | ok path => simp only [hold, hfind]

/-! ### What calls leave behind -/

/-- The cache that calls leave behind: every one that can be resolved, once, where it came first. -/
def ofCalls (ts : TypeSystem) (calls : List PathKey) : PathCache :=
  ⟨(calls.reverse.filterMap (·.held? ts)).dedup⟩

@[simp] theorem ofCalls_nil : ofCalls ts [] = empty := rfl

/-- A further call adds its entry in front, unless the key is there already. -/
theorem entries_ofCalls_concat (calls : List PathKey) (key : PathKey) :
    (ofCalls ts (calls ++ [key])).entries =
      ((key.held? ts).toList ++ calls.reverse.filterMap (·.held? ts)).dedup := by
  rw [ofCalls, List.reverse_append, List.reverse_singleton, List.singleton_append]
  cases hentry : key.held? ts <;> simp [hentry]

/-- The cache after calls has the resolutions of those that succeed. -/
theorem mem_ofCalls {calls : List PathKey} {entry : PathKey × FeaturePath} :
    entry ∈ (ofCalls ts calls).entries ↔ entry.1 ∈ calls ∧ entry.1.resolve ts = .ok entry.2 := by
  rw [ofCalls, List.mem_dedup, List.mem_filterMap]
  constructor
  · rintro ⟨key, hkey, hentry⟩
    obtain ⟨rfl, hpath⟩ := PathKey.held?_eq_some_iff.mp hentry
    exact ⟨List.mem_reverse.mp hkey, hpath⟩
  · rintro ⟨hkey, hpath⟩
    exact ⟨entry.1, List.mem_reverse.mpr hkey, PathKey.held?_eq_some_iff.mpr ⟨rfl, hpath⟩⟩

/-- **What is held after some calls**: the resolutions of those of them that have one. -/
theorem find?_ofCalls_eq_some_iff {calls : List PathKey} {key : PathKey} {path : FeaturePath} :
    (ofCalls ts calls).find? key = some path ↔ key ∈ calls ∧ key.resolve ts = .ok path := by
  constructor
  · exact fun h => mem_ofCalls.mp (mem_entries_of_find? h)
  · rintro ⟨hkey, hpath⟩
    have hmem : (key, path) ∈ (ofCalls ts calls).entries := mem_ofCalls.mpr ⟨hkey, hpath⟩
    obtain ⟨held, hfind⟩ := exists_find?_of_mem hmem
    have hheld : key.resolve ts = .ok held := (mem_ofCalls.mp (mem_entries_of_find? hfind)).2
    rw [hpath] at hheld
    rw [hfind, Except.ok.inj hheld]

/-- Nothing is found for a key whose resolution fails. -/
theorem find?_ofCalls_eq_none_of_error {calls : List PathKey} {key : PathKey}
    {e : ResolutionError} (h : key.resolve ts = .error e) : (ofCalls ts calls).find? key = none := by
  rw [Option.eq_none_iff_forall_ne_some]
  intro path hfind
  rw [(find?_ofCalls_eq_some_iff.mp hfind).2] at h
  exact nomatch h

/-- **No key is held twice.** -/
theorem nodup_keys_ofCalls (calls : List PathKey) :
    ((ofCalls ts calls).entries.map Prod.fst).Nodup := by
  refine List.Nodup.map_on (fun entry hentry other hother heq => ?_) (List.nodup_dedup _)
  have hpath := (mem_ofCalls.mp hentry).2
  rw [heq, (mem_ofCalls.mp hother).2] at hpath
  exact Prod.ext heq (Except.ok.inj hpath).symm

/-- **The number of entries**: that of the different keys that can be resolved. -/
theorem size_ofCalls (calls : List PathKey) :
    (ofCalls ts calls).size = (calls.filter fun key => (key.held? ts).isSome).dedup.length := by
  have hkeys : ∀ key, key ∈ (ofCalls ts calls).entries.map Prod.fst ↔
      key ∈ (calls.filter fun key => (key.held? ts).isSome).dedup := by
    intro key
    rw [List.mem_dedup, List.mem_filter, Option.isSome_iff_exists, List.mem_map]
    constructor
    · rintro ⟨entry, hentry, rfl⟩
      have h := mem_ofCalls.mp hentry
      exact ⟨h.1, entry, PathKey.held?_eq_some_iff.mpr ⟨rfl, h.2⟩⟩
    · rintro ⟨hkey, entry, hentry⟩
      obtain ⟨rfl, hpath⟩ := PathKey.held?_eq_some_iff.mp hentry
      exact ⟨entry, mem_ofCalls.mpr ⟨hkey, hpath⟩, rfl⟩
  have hperm := (List.perm_ext_iff_of_nodup (nodup_keys_ofCalls calls) (List.nodup_dedup _)).mpr hkeys
  rw [size, ← hperm.length_eq, List.length_map]

/-! ### One call, and any number of them -/

/-- **One more call** answers as the resolution does and is one call more in what is held. -/
theorem ofCalls_resolve (calls : List PathKey) (key : PathKey) :
    (ofCalls ts calls).resolve ts key = (key.resolve ts, ofCalls ts (calls ++ [key])) := by
  have hconcat := @entries_ofCalls_concat ts calls key
  rw [resolve_eq_hold]
  cases hpath : key.resolve ts with
  | error e =>
    have hentry : key.held? ts = none := by rw [PathKey.held?, hpath]; rfl
    rw [hentry, Option.toList_none, List.nil_append] at hconcat
    rw [find?_ofCalls_eq_none_of_error hpath]
    exact Prod.ext rfl (congrArg PathCache.mk hconcat.symm)
  | ok path =>
    have hentry : key.held? ts = some (key, path) := PathKey.held?_eq_some_iff.mpr ⟨rfl, hpath⟩
    rw [hentry, Option.toList_some, List.singleton_append] at hconcat
    by_cases hmem : key ∈ calls
    · have hfind := find?_ofCalls_eq_some_iff.mpr ⟨hmem, hpath⟩
      have hheld : (key, path) ∈ (ofCalls ts calls).entries := mem_ofCalls.mpr ⟨hmem, hpath⟩
      rw [List.dedup_cons_of_mem (List.mem_dedup.mp hheld)] at hconcat
      rw [hfind]
      exact Prod.ext rfl (congrArg PathCache.mk hconcat.symm)
    · have hfind : (ofCalls ts calls).find? key = none := by
        rw [Option.eq_none_iff_forall_ne_some]
        exact fun _ h => hmem (find?_ofCalls_eq_some_iff.mp h).1
      have hnew : (key, path) ∉ (ofCalls ts calls).entries := fun h => hmem (mem_ofCalls.mp h).1
      rw [List.dedup_cons_of_notMem (mt List.mem_dedup.mpr hnew)] at hconcat
      simp only [hfind, hold]
      exact Prod.ext rfl (congrArg PathCache.mk hconcat.symm)

/-- **A run of calls** answers as the resolution does, and all its calls are in what is held. -/
theorem ofCalls_resolveAll (done calls : List PathKey) :
    (ofCalls ts done).resolveAll ts calls =
      (calls.map (·.resolve ts), ofCalls ts (done ++ calls)) := by
  induction calls generalizing done with
  | nil => rw [resolveAll, List.append_nil, List.map_nil]
  | cons key rest ih =>
    rw [resolveAll, ofCalls_resolve, ih, List.append_assoc, List.singleton_append, List.map_cons]

/-- The entries of some calls are the last ones of every continuation. -/
theorem entries_ofCalls_suffix (calls more : List PathKey) :
    (ofCalls ts calls).entries <:+ (ofCalls ts (calls ++ more)).entries := by
  rw [ofCalls, ofCalls, List.reverse_append, List.filterMap_append]
  generalize (calls.reverse.filterMap (·.held? ts)) = held
  induction more.reverse.filterMap (·.held? ts) with
  | nil => exact List.suffix_rfl
  | cons entry added ih =>
    rw [List.cons_append]
    by_cases hmem : entry ∈ added ++ held
    · rw [List.dedup_cons_of_mem hmem]
      exact ih
    · rw [List.dedup_cons_of_notMem hmem]
      exact ih.trans (List.suffix_cons entry _)

/-- A cache **mirrors** calls: it holds exactly their resolutions, each once. -/
structure Mirrors (ts : TypeSystem) (calls : List PathKey) (cache : PathCache) : Prop where
  find?_eq_some_iff : ∀ {key path},
    cache.find? key = some path ↔ key ∈ calls ∧ key.resolve ts = .ok path
  nodup_keys : (cache.entries.map Prod.fst).Nodup
  size_eq : cache.size = (calls.filter fun key => (key.held? ts).isSome).dedup.length

/-- **A cache never shows.** From the empty cache on, any calls are answered as without a cache, and
what is held then mirrors them. Whatever is called afterwards adds to the entries and keeps those that
are there; a path offered for a key that has one is dropped; and a call that fails leaves the cache as
it was. -/
theorem transparent_after_any_calls (ts : TypeSystem) (calls : List PathKey) :
    (empty.resolveAll ts calls).1 = calls.map (·.resolve ts) ∧
      Mirrors ts calls (empty.resolveAll ts calls).2 ∧
      (∀ more, (empty.resolveAll ts calls).2.entries <:+
        (empty.resolveAll ts (calls ++ more)).2.entries) ∧
      (∀ key held path, (empty.resolveAll ts calls).2.find? key = some held →
        (empty.resolveAll ts calls).2.hold key path = (held, (empty.resolveAll ts calls).2)) ∧
      ∀ key e, key.resolve ts = .error e →
        (empty.resolveAll ts calls).2.resolve ts key = (.error e, (empty.resolveAll ts calls).2) := by
  have hrun : ∀ calls, empty.resolveAll ts calls = (calls.map (·.resolve ts), ofCalls ts calls) :=
    ofCalls_resolveAll []
  rw [hrun calls]
  refine ⟨rfl, ⟨find?_ofCalls_eq_some_iff, nodup_keys_ofCalls calls, size_ofCalls calls⟩,
    fun more => ?_, fun key held path h => hold_of_find? h path, fun key e he => ?_⟩
  · rw [hrun]
    exact entries_ofCalls_suffix calls more
  · rw [resolve_eq_hold, find?_ofCalls_eq_none_of_error he, he]

end PathCache

end AnnotatedText

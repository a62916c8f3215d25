import ClaimPolicy.Checker

/-!
A store for collections that were read before, and checkers that use one. An entry remembers whether
its collection is as read or already validated. Entries of another kind than the one asked for are
never used; a call that fails stores nothing for the input that failed.
-/
namespace ClaimPolicy

structure CachedClaims where
  kind : Kind
  claims : List (Claim kind)

def CachedClaims.ofKind : (kind : Kind) → CachedClaims → Option (List (Claim kind))
  | .authorization, ⟨.authorization, claims⟩ => some claims
  | .assertion, ⟨.assertion, claims⟩ => some claims
  | .grants, ⟨.grants, claims⟩ => some claims
  | _, _ => none

structure CacheEntry where
  cached : CachedClaims
  validated : Bool

structure Cache where
  entries : List (String × CacheEntry) := []

namespace Cache

def name : String := "MemoryCache"

def empty : Cache := {}

def get? (cache : Cache) (key : String) : Option CacheEntry :=
  cache.entries.lookup key

def set (cache : Cache) (key : String) (entry : CacheEntry) : Cache :=
  ⟨(key, entry) :: cache.entries.filter fun stored => stored.1 != key⟩

def contains (cache : Cache) (key : String) : Bool :=
  (cache.get? key).isSome

def size (cache : Cache) : Nat := cache.entries.length

def isEmpty (cache : Cache) : Bool := cache.size == 0

def clear (_ : Cache) : Cache := empty

theorem get_set_same (cache : Cache) (key : String) (entry : CacheEntry) :
    (cache.set key entry).get? key = some entry := by
  simp [get?, set]

theorem lookup_filter_ne {key other : String} (different : other ≠ key)
    (entries : List (String × CacheEntry)) :
    (entries.filter fun stored => stored.1 != key).lookup other = entries.lookup other := by
  induction entries with
  | nil => rfl
  | cons first rest ih =>
      obtain ⟨stored, value⟩ := first
      by_cases same : stored = key
      · subst same
        have missed : (other == stored) = false := by simp [different]
        simp [List.lookup_cons, missed, ih]
      · simp only [List.filter_cons, bne_iff_ne, ne_eq, same, not_false_eq_true, if_true]
        simp only [List.lookup_cons, ih]

theorem get_set_other (cache : Cache) {key other : String} (entry : CacheEntry)
    (different : other ≠ key) : (cache.set key entry).get? other = cache.get? other := by
  have missed : (other == key) = false := by simp [different]
  simp [get?, set, List.lookup_cons, missed, lookup_filter_ne different]

end Cache

def cacheKey (kind : Kind) (raw : String) : String :=
  kind.label ++ "/" ++ raw

namespace Checker

def stored (cache : Cache) (kind : Kind) (raw : String) : Option (List (Claim kind) × Bool) := do
  let entry ← cache.get? (cacheKey kind raw)
  let claims ← entry.cached.ofKind kind
  return (claims, entry.validated)

/-- Reads a string of claims, from the store if it is there; what is read is stored as read. -/
def parseCached (cache : Cache) (kind : Kind) (raw : String) :
    Except Error (List (Claim kind)) × Cache :=
  match stored cache kind raw with
  | some (claims, _) => (.ok claims, cache)
  | none =>
      match Claims.parse kind raw with
      | .error error => (.error error, cache)
      | .ok claims => (.ok claims, cache.set (cacheKey kind raw) ⟨⟨kind, claims⟩, false⟩)

/-- Validates a collection and stores the reduced form for the string it came from. -/
def validateInto (checker : Checker) (cache : Cache) (kind : Kind) (raw : String)
    (claims : List (Claim kind)) : Except Error (List (Claim kind)) × Cache :=
  match checker.validate claims with
  | .error error => (.error error, cache)
  | .ok reduced =>
      (.ok reduced.claims, cache.set (cacheKey kind raw) ⟨⟨kind, reduced.claims⟩, true⟩)

/-- Collections are validated without the store. A string whose validated form is stored is not read
again; otherwise it is read, unless it was read before, and its validated form is stored. -/
def resolveCached (checker : Checker) (cache : Cache) {kind : Kind} :
    ClaimInput kind → Except Error (List (Claim kind)) × Cache
  | .parsed claims => (checker.resolve (.parsed claims), cache)
  | .raw raw =>
      match stored cache kind raw with
      | some (claims, true) => (.ok claims, cache)
      | some (claims, false) => checker.validateInto cache kind raw claims
      | none =>
          match Claims.parse kind raw with
          | .error error => (.error error, cache)
          | .ok claims => checker.validateInto cache kind raw claims

def testCached (checker : Checker) (cache : Cache) (authorization : ClaimInput .authorization)
    (assertion : ClaimInput .assertion) : Except Error Verdict × Cache :=
  match checker.resolveCached cache authorization with
  | (.error error, cache) => (.error error, cache)
  | (.ok authorization, cache) =>
      match checker.resolveCached cache assertion with
      | (.error error, cache) => (.error error, cache)
      | (.ok assertion, cache) => (.ok (checker.evaluate authorization assertion), cache)

end Checker

end ClaimPolicy

import ClaimPolicy.Cache

/-!
Right entries of a store: what is read from the string of a key, or its validated form. Reading,
resolving and testing through a store whose entries are right answers as without it, leaves the
entries right and every validated one in its place, whether or not the call fails.
-/
namespace ClaimPolicy

theorem cache_key_injective {kind other : Kind} {raw text : String}
    (same : cacheKey kind raw = cacheKey other text) : kind = other ∧ raw = text := by
  have letters := congrArg String.toList same
  simp only [cacheKey, String.toList_append] at letters
  cases kind <;> cases other <;> simp [Kind.label] at letters ⊢
  all_goals exact String.toList_inj.mp letters

/-- What a store may hold for a string: what is read from it, or the validated form of that. -/
inductive CacheEntry.RightFor (checker : Checker) (kind : Kind) (raw : String) :
    CacheEntry → Prop where
  | read {claims : List (Claim kind)} (parsed : Claims.parse kind raw = .ok claims) :
      RightFor checker kind raw ⟨⟨kind, claims⟩, false⟩
  | validated {claims : List (Claim kind)} {reduced : Reduced kind}
      (parsed : Claims.parse kind raw = .ok claims)
      (valid : checker.validate claims = .ok reduced) :
      RightFor checker kind raw ⟨⟨kind, reduced.claims⟩, true⟩

namespace Cache

def Faithful (checker : Checker) (cache : Cache) : Prop :=
  ∀ kind raw entry, cache.get? (cacheKey kind raw) = some entry →
    entry.RightFor checker kind raw

def Keeps (cache after : Cache) : Prop :=
  ∀ key entry, cache.get? key = some entry → entry.validated = true →
    after.get? key = some entry

/-- What a call that does not clear the store does to it. -/
structure Advances (checker : Checker) (cache after : Cache) : Prop where
  faithful : after.Faithful checker
  keeps : cache.Keeps after

variable {checker : Checker} {cache : Cache}

theorem empty_faithful (checker : Checker) : Cache.empty.Faithful checker := by
  intro kind raw entry found
  simp [empty, get?] at found

theorem keeps_refl (cache : Cache) : cache.Keeps cache :=
  fun _ _ found _ => found

theorem keeps_trans {first second third : Cache} (front : first.Keeps second)
    (back : second.Keeps third) : first.Keeps third :=
  fun key entry found validated => back key entry (front key entry found validated) validated

theorem advances_refl (faithful : cache.Faithful checker) : cache.Advances checker cache :=
  ⟨faithful, keeps_refl cache⟩

theorem advances_trans {first second third : Cache} (front : first.Advances checker second)
    (back : second.Advances checker third) : first.Advances checker third :=
  ⟨back.faithful, keeps_trans front.keeps back.keeps⟩

/-- A right entry may be stored where there is no validated one. -/
theorem advances_set (faithful : cache.Faithful checker) {kind : Kind} {raw : String}
    {entry : CacheEntry} (right : entry.RightFor checker kind raw)
    (unsettled : ∀ held, cache.get? (cacheKey kind raw) = some held → held.validated = false) :
    cache.Advances checker (cache.set (cacheKey kind raw) entry) := by
  constructor
  · intro other text found present
    by_cases same : cacheKey other text = cacheKey kind raw
    · obtain ⟨rfl, rfl⟩ := cache_key_injective same
      rw [get_set_same] at present
      cases present
      exact right
    · rw [get_set_other cache entry same] at present
      exact faithful other text found present
  · intro key held present validated
    have different : key ≠ cacheKey kind raw := by
      intro same
      subst same
      rw [unsettled held present] at validated
      exact absurd validated (by decide)
    rw [get_set_other cache entry different]
    exact present

end Cache

theorem CachedClaims.of_kind_eq_some_iff {kind : Kind} (cached : CachedClaims)
    (claims : List (Claim kind)) : cached.ofKind kind = some claims ↔
      cached = ⟨kind, claims⟩ := by
  obtain ⟨other, held⟩ := cached
  cases kind <;> cases other <;> simp [CachedClaims.ofKind]

theorem CachedClaims.of_own_kind {kind : Kind} (claims : List (Claim kind)) :
    CachedClaims.ofKind kind ⟨kind, claims⟩ = some claims :=
  (of_kind_eq_some_iff _ claims).mpr rfl

namespace Checker

variable {checker : Checker} {cache : Cache}

theorem stored_cases (faithful : cache.Faithful checker) (kind : Kind) (raw : String) :
    (stored cache kind raw = none ∧ cache.get? (cacheKey kind raw) = none) ∨
      (∃ claims, Claims.parse kind raw = .ok claims ∧
        stored cache kind raw = some (claims, false) ∧
          cache.get? (cacheKey kind raw) = some ⟨⟨kind, claims⟩, false⟩) ∨
        ∃ claims reduced, Claims.parse kind raw = .ok claims ∧
          checker.validate claims = .ok reduced ∧
            stored cache kind raw = some (reduced.claims, true) := by
  cases present : cache.get? (cacheKey kind raw) with
  | none =>
      left
      simp [stored, present]
  | some entry =>
      right
      cases faithful kind raw entry present with
      | @read claims parsed =>
          have here : stored cache kind raw = some (claims, false) := by
            simp [stored, present, CachedClaims.of_own_kind]
          exact Or.inl ⟨_, parsed, here, rfl⟩
      | @validated claims reduced parsed valid =>
          have here : stored cache kind raw = some (reduced.claims, true) := by
            simp [stored, present, CachedClaims.of_own_kind]
          exact Or.inr ⟨_, _, parsed, valid, here⟩

/-- What reading a string through a store may answer. -/
def Reads (checker : Checker) (kind : Kind) (raw : String) :
    Except Error (List (Claim kind)) → Prop
  | .error error => Claims.parse kind raw = .error error
  | .ok claims => Claims.parse kind raw = .ok claims ∨
      ∃ parsed reduced, Claims.parse kind raw = .ok parsed ∧
        checker.validate parsed = .ok reduced ∧ claims = reduced.claims

theorem parse_cached_right (faithful : cache.Faithful checker) (kind : Kind) (raw : String) :
    checker.Reads kind raw (parseCached cache kind raw).1 ∧
      cache.Advances checker (parseCached cache kind raw).2 := by
  rw [parseCached]
  rcases stored_cases faithful kind raw with
    ⟨missing, absent⟩ | ⟨claims, parsed, found, _⟩
      | ⟨claims, reduced, parsed, valid, found⟩
  · rw [missing]
    cases parsed : Claims.parse kind raw with
    | error error => exact ⟨parsed, Cache.advances_refl faithful⟩
    | ok claims =>
        apply And.intro (Or.inl parsed)
        apply Cache.advances_set faithful (.read parsed)
        intro held present
        rw [absent] at present
        cases present
  · rw [found]
    exact ⟨Or.inl parsed, Cache.advances_refl faithful⟩
  · rw [found]
    exact ⟨Or.inr ⟨claims, reduced, parsed, valid, rfl⟩, Cache.advances_refl faithful⟩

theorem validate_into_answer (cache : Cache) {kind : Kind} (raw : String)
    (claims : List (Claim kind)) :
    (checker.validateInto cache kind raw claims).1 = checker.resolve (.parsed claims) := by
  rw [validateInto, resolve]
  cases checker.validate claims <;> rfl

theorem validate_into_right (faithful : cache.Faithful checker) {kind : Kind} {raw : String}
    {claims : List (Claim kind)} (parsed : Claims.parse kind raw = .ok claims)
    (unsettled : ∀ held, cache.get? (cacheKey kind raw) = some held → held.validated = false) :
    (checker.validateInto cache kind raw claims).1 = checker.resolve (.parsed claims) ∧
      cache.Advances checker (checker.validateInto cache kind raw claims).2 := by
  refine ⟨validate_into_answer cache raw claims, ?_⟩
  rw [validateInto]
  cases valid : checker.validate claims with
  | error error => exact Cache.advances_refl faithful
  | ok reduced => exact Cache.advances_set faithful (.validated parsed valid) unsettled

theorem resolve_raw {kind : Kind} {raw : String} {claims : List (Claim kind)}
    (parsed : Claims.parse kind raw = .ok claims) :
    checker.resolve (.raw raw) = checker.resolve (.parsed claims) := by
  rw [resolve, resolve, parsed]
  rfl

theorem resolve_cached_right (faithful : cache.Faithful checker) {kind : Kind}
    (input : ClaimInput kind) :
    (checker.resolveCached cache input).1 = checker.resolve input ∧
      cache.Advances checker (checker.resolveCached cache input).2 := by
  cases input with
  | parsed claims => exact ⟨rfl, Cache.advances_refl faithful⟩
  | raw raw =>
      rw [resolveCached]
      rcases stored_cases faithful kind raw with
        ⟨missing, absent⟩ | ⟨claims, parsed, found, held⟩
          | ⟨claims, reduced, parsed, valid, found⟩
      · rw [missing]
        cases parsed : Claims.parse kind raw with
        | error error =>
            have refused : @resolve checker kind (.raw raw) = .error error := by
              rw [resolve, parsed]
              rfl
            exact ⟨refused.symm, Cache.advances_refl faithful⟩
        | ok claims =>
            rw [resolve_raw parsed]
            apply validate_into_right faithful parsed
            intro entry present
            rw [absent] at present
            cases present
      · rw [found, resolve_raw parsed]
        apply validate_into_right faithful parsed
        intro entry present
        rw [held] at present
        cases present
        rfl
      · rw [found, resolve_raw parsed, resolve, valid]
        exact ⟨rfl, Cache.advances_refl faithful⟩

theorem test_cached_right (faithful : cache.Faithful checker)
    (authorization : ClaimInput .authorization) (assertion : ClaimInput .assertion) :
    (checker.testCached cache authorization assertion).1 = checker.test authorization assertion ∧
      cache.Advances checker (checker.testCached cache authorization assertion).2 := by
  obtain ⟨heldAnswer, first⟩ := resolve_cached_right faithful authorization
  rw [testCached, test, ← heldAnswer]
  cases heldOutcome : checker.resolveCached cache authorization with
  | mk heldResult between =>
      rw [heldOutcome] at first
      cases heldResult with
      | error error => exact ⟨rfl, first⟩
      | ok held =>
          obtain ⟨requiredAnswer, second⟩ := resolve_cached_right first.faithful assertion
          dsimp only
          rw [← requiredAnswer]
          cases requiredOutcome : checker.resolveCached between assertion with
          | mk requiredResult after =>
              rw [requiredOutcome] at second
              cases requiredResult with
              | error error => exact ⟨rfl, Cache.advances_trans first second⟩
              | ok required => exact ⟨rfl, Cache.advances_trans first second⟩

end Checker

end ClaimPolicy

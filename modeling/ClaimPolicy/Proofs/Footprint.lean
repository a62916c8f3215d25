import ClaimPolicy.Proofs.Store
import ClaimPolicy.Proofs.Subsumption
import ClaimPolicy.Session

/-!
What a call changes in a store, whatever the store holds. An entry is used for a string only when
its collection is of the kind asked for; entries of other kinds have no part in any answer. A string
that is refused changes nothing, and a decision that is made leaves validated entries under the keys
of its strings and changes nothing else.
-/
namespace ClaimPolicy

/-- The keys under which an input is looked up. A collection is not looked up. -/
def ClaimInput.keys {kind : Kind} : ClaimInput kind → List String
  | .raw text => [cacheKey kind text]
  | .parsed _ => []

theorem ClaimInput.key_of_other_kind {kind other : Kind} (different : kind ≠ other) (raw : String)
    (input : ClaimInput other) : cacheKey kind raw ∉ input.keys := by
  cases input with
  | raw text =>
      intro among
      have same := List.mem_singleton.mp among
      exact different (cache_key_injective same).1
  | parsed claims => exact List.not_mem_nil

namespace Cache

/-- An entry that may be used for a string: a collection of the kind asked for, with its flag. -/
def Offers (cache : Cache) (kind : Kind) (raw : String) (claims : List (Claim kind))
    (validated : Bool) : Prop :=
  cache.get? (cacheKey kind raw) = some ⟨⟨kind, claims⟩, validated⟩

def SameBut (keys : List String) (cache after : Cache) : Prop :=
  ∀ key, key ∉ keys → after.get? key = cache.get? key

/-- Two stores have the same entries of the right kinds, whatever else they hold. -/
def Alike (cache other : Cache) : Prop :=
  ∀ kind raw claims validated,
    cache.Offers kind raw claims validated ↔ other.Offers kind raw claims validated

/-- If the input is a string, a validated collection is stored for it. -/
def Settled (cache : Cache) {kind : Kind} (claims : List (Claim kind)) : ClaimInput kind → Prop
  | .raw text => cache.Offers kind text claims true
  | .parsed _ => True

variable {cache between after other : Cache}

theorem same_but_refl (keys : List String) (cache : Cache) : cache.SameBut keys cache :=
  fun _ _ => rfl

theorem same_but_set (cache : Cache) (key : String) (entry : CacheEntry) :
    cache.SameBut [key] (cache.set key entry) := by
  intro other outside
  exact get_set_other cache entry (mt List.mem_singleton.mpr outside)

theorem SameBut.trans {front back : List String} (first : cache.SameBut front between)
    (second : between.SameBut back after) : cache.SameBut (front ++ back) after := by
  intro key outside
  rw [List.mem_append, not_or] at outside
  rw [second key outside.2, first key outside.1]

theorem SameBut.offers_iff {keys : List String} (same : cache.SameBut keys after) {kind : Kind}
    {raw : String} (outside : cacheKey kind raw ∉ keys) (claims : List (Claim kind))
    (validated : Bool) :
    cache.Offers kind raw claims validated ↔ after.Offers kind raw claims validated := by
  rw [Offers, Offers, same _ outside]

theorem Settled.kept {kind opposite : Kind} (different : kind ≠ opposite)
    {input : ClaimInput kind} {later : ClaimInput opposite} {claims : List (Claim kind)}
    (settled : cache.Settled claims input)
    (same : cache.SameBut later.keys after) : after.Settled claims input := by
  cases input with
  | parsed => trivial
  | raw text =>
      have outside := ClaimInput.key_of_other_kind different text later
      exact (same.offers_iff outside claims true).mp settled

theorem Alike.set (alike : cache.Alike other) (key : String) (entry : CacheEntry) :
    (cache.set key entry).Alike (other.set key entry) := by
  intro kind raw claims validated
  by_cases here : cacheKey kind raw = key
  · subst here
    rw [Offers, Offers, get_set_same, get_set_same]
  · rw [Offers, Offers, get_set_other _ _ here, get_set_other _ _ here]
    exact alike kind raw claims validated

/-- An entry of the wrong kind, where no other is used, is as good as none. -/
theorem alike_set_stray (kind : Kind) (raw : String) {entry : CacheEntry}
    (stray : entry.cached.kind ≠ kind)
    (vacant : ∀ claims validated, ¬ cache.Offers kind raw claims validated) :
    cache.Alike (cache.set (cacheKey kind raw) entry) := by
  intro asked text claims validated
  by_cases here : cacheKey asked text = cacheKey kind raw
  · obtain ⟨rfl, rfl⟩ := cache_key_injective here
    refine iff_of_false (vacant claims validated) ?_
    intro offered
    rw [Offers, get_set_same] at offered
    exact stray (congrArg (fun held => held.cached.kind) (Option.some.inj offered))
  · rw [Offers, Offers, get_set_other _ _ here]

end Cache

namespace Checker

variable {checker : Checker} {cache between other : Cache} {kind : Kind}

theorem stored_eq_some_iff (kind : Kind) (raw : String) (held : List (Claim kind) × Bool) :
    stored cache kind raw = some held ↔ cache.Offers kind raw held.1 held.2 := by
  obtain ⟨claims, validated⟩ := held
  rw [Cache.Offers, stored]
  cases cache.get? (cacheKey kind raw) with
  | none => simp
  | some entry =>
      obtain ⟨cached, flag⟩ := entry
      simp [Option.bind_eq_some_iff, CachedClaims.of_kind_eq_some_iff]

theorem stored_eq_none_iff (kind : Kind) (raw : String) :
    stored cache kind raw = none ↔
      ∀ claims validated, ¬ cache.Offers kind raw claims validated := by
  rw [Option.eq_none_iff_forall_ne_some]
  constructor
  · intro nothing claims validated offered
    exact nothing (claims, validated) ((stored_eq_some_iff kind raw _).mpr offered)
  · intro vacant held found
    exact vacant held.1 held.2 ((stored_eq_some_iff kind raw held).mp found)

/-- What an input comes to beside a store. A validated collection is taken as it is and another one
is validated; where there is none of the right kind, the string is read as without a store. -/
inductive Resolves (checker : Checker) (cache : Cache) {kind : Kind} :
    ClaimInput kind → Except Error (List (Claim kind)) → Prop where
  | parsed (claims : List (Claim kind)) :
      Resolves checker cache (.parsed claims) (checker.resolve (.parsed claims))
  | settled {raw : String} {claims : List (Claim kind)}
      (offered : cache.Offers kind raw claims true) : Resolves checker cache (.raw raw) (.ok claims)
  | unsettled {raw : String} {claims : List (Claim kind)}
      (offered : cache.Offers kind raw claims false) :
      Resolves checker cache (.raw raw) (checker.resolve (.parsed claims))
  | vacant {raw : String}
      (nothing : ∀ claims validated, ¬ cache.Offers kind raw claims validated) :
      Resolves checker cache (.raw raw) (checker.resolve (.raw raw))

theorem resolves_total (checker : Checker) (cache : Cache) (input : ClaimInput kind) :
    ∃ outcome, checker.Resolves cache input outcome := by
  cases input with
  | parsed claims => exact ⟨_, .parsed claims⟩
  | raw raw =>
      cases found : stored cache kind raw with
      | none => exact ⟨_, .vacant ((stored_eq_none_iff kind raw).mp found)⟩
      | some held =>
          have offered := (stored_eq_some_iff kind raw held).mp found
          obtain ⟨claims, validated⟩ := held
          cases validated with
          | true => exact ⟨_, .settled offered⟩
          | false => exact ⟨_, .unsettled offered⟩

theorem resolve_cached_eq {input : ClaimInput kind} {outcome : Except Error (List (Claim kind))}
    (resolves : checker.Resolves cache input outcome) :
    (checker.resolveCached cache input).1 = outcome := by
  cases resolves with
  | parsed claims => rfl
  | settled offered => rw [resolveCached, (stored_eq_some_iff kind _ (_, true)).mpr offered]
  | unsettled offered =>
      rw [resolveCached, (stored_eq_some_iff kind _ (_, false)).mpr offered]
      exact validate_into_answer cache _ _
  | @vacant raw nothing =>
      rw [resolveCached, (stored_eq_none_iff kind raw).mpr nothing]
      cases parsed : Claims.parse kind raw with
      | error fault =>
          rw [resolve, parsed]
          rfl
      | ok claims =>
          rw [resolve_raw parsed]
          exact validate_into_answer cache raw claims

theorem resolves_iff_answered (input : ClaimInput kind)
    (outcome : Except Error (List (Claim kind))) :
    checker.Resolves cache input outcome ↔ (checker.resolveCached cache input).1 = outcome := by
  constructor
  · exact resolve_cached_eq
  · intro answered
    obtain ⟨other, resolves⟩ := checker.resolves_total cache input
    rw [← answered, resolve_cached_eq resolves]
    exact resolves

theorem Resolves.same_offers {input : ClaimInput kind} {outcome : Except Error (List (Claim kind))}
    (same : ∀ raw claims validated,
      cache.Offers kind raw claims validated ↔ other.Offers kind raw claims validated)
    (resolves : checker.Resolves cache input outcome) : checker.Resolves other input outcome := by
  cases resolves with
  | parsed claims => exact .parsed claims
  | settled offered => exact .settled ((same _ _ _).mp offered)
  | unsettled offered => exact .unsettled ((same _ _ _).mp offered)
  | vacant nothing =>
      exact .vacant fun claims validated offered =>
        nothing claims validated ((same _ _ _).mpr offered)

theorem validate_into_store (cache : Cache) (raw : String) (claims : List (Claim kind)) :
    (∀ fault, (checker.validateInto cache kind raw claims).1 = .error fault →
      (checker.validateInto cache kind raw claims).2 = cache) ∧
    ∀ reduced, (checker.validateInto cache kind raw claims).1 = .ok reduced →
      cache.SameBut [cacheKey kind raw] (checker.validateInto cache kind raw claims).2 ∧
        (checker.validateInto cache kind raw claims).2.Offers kind raw reduced true := by
  rw [validateInto]
  cases checker.validate claims with
  | error fault =>
      refine ⟨fun _ _ => rfl, ?_⟩
      intro reduced answered
      cases answered
  | ok result =>
      refine ⟨?_, ?_⟩
      · intro fault refused
        cases refused
      · intro reduced answered
        cases answered
        exact ⟨Cache.same_but_set _ _ _, Cache.get_set_same _ _ _⟩

theorem resolve_cached_store (cache : Cache) (input : ClaimInput kind) :
    (∀ fault, (checker.resolveCached cache input).1 = .error fault →
      (checker.resolveCached cache input).2 = cache) ∧
    ∀ claims, (checker.resolveCached cache input).1 = .ok claims →
      cache.SameBut input.keys (checker.resolveCached cache input).2 ∧
        (checker.resolveCached cache input).2.Settled claims input := by
  cases input with
  | parsed claims => exact ⟨fun _ _ => rfl, fun _ _ => ⟨Cache.same_but_refl _ _, trivial⟩⟩
  | raw raw =>
      rw [resolveCached]
      cases found : stored cache kind raw with
      | none =>
          cases Claims.parse kind raw with
          | error fault =>
              refine ⟨fun _ _ => rfl, ?_⟩
              intro claims answered
              cases answered
          | ok claims => exact checker.validate_into_store cache raw claims
      | some held =>
          have offered := (stored_eq_some_iff kind raw held).mp found
          obtain ⟨claims, validated⟩ := held
          cases validated with
          | false => exact checker.validate_into_store cache raw claims
          | true =>
              refine ⟨fun _ _ => rfl, ?_⟩
              intro claims answered
              cases answered
              exact ⟨Cache.same_but_refl _ _, offered⟩

theorem resolve_cached_refused {input : ClaimInput kind} {fault : Error}
    (refused : checker.Resolves cache input (.error fault)) :
    checker.resolveCached cache input = (.error fault, cache) := by
  have answer := resolve_cached_eq refused
  have unchanged := (checker.resolve_cached_store cache input).1 fault answer
  exact Prod.ext answer unchanged

theorem resolve_cached_accepted {input : ClaimInput kind} {claims : List (Claim kind)}
    (accepted : checker.Resolves cache input (.ok claims)) :
    ∃ after, checker.resolveCached cache input = (.ok claims, after) ∧
      cache.SameBut input.keys after ∧ after.Settled claims input := by
  have answer := resolve_cached_eq accepted
  have stores := (checker.resolve_cached_store cache input).2 claims answer
  exact ⟨_, Prod.ext answer rfl, stores⟩

theorem resolve_cached_parsed (checker : Checker) (cache : Cache) (claims : List (Claim kind)) :
    checker.resolveCached cache (.parsed claims) =
      ((checker.validate claims).map Reduced.claims, cache) := by
  rw [resolveCached, resolve]
  cases checker.validate claims <;> rfl

theorem parse_cached_refused {raw : String} {fault : Error}
    (refused : (parseCached cache kind raw).1 = .error fault) :
    (parseCached cache kind raw).2 = cache := by
  revert refused
  rw [parseCached]
  split
  · intro answered
    cases answered
  · split
    · exact fun _ => rfl
    · intro answered
      cases answered

theorem parse_cached_vacant {raw : String}
    (nothing : ∀ claims validated, ¬ cache.Offers kind raw claims validated) :
    (parseCached cache kind raw).1 = Claims.parse kind raw := by
  rw [parseCached, (stored_eq_none_iff kind raw).mpr nothing]
  cases Claims.parse kind raw <;> rfl

variable {authorization : ClaimInput .authorization} {assertion : ClaimInput .assertion}

theorem test_cached_unauthorized {fault : Error}
    (refused : checker.Resolves cache authorization (.error fault))
    (assertion : ClaimInput .assertion) :
    checker.testCached cache authorization assertion = (.error fault, cache) := by
  rw [testCached, resolve_cached_refused refused]

/-- The assertion is looked up under a key of its own, so it comes to the same when the
authorization has been resolved before. -/
theorem resolves_after_authorization {between : Cache}
    (same : cache.SameBut authorization.keys between) {outcome : Except Error Assertion}
    (second : checker.Resolves cache assertion outcome) :
    checker.Resolves between assertion outcome := by
  apply second.same_offers
  intro raw
  exact same.offers_iff (ClaimInput.key_of_other_kind (by decide) raw authorization)

theorem test_cached_unasserted {held : Authorization} {fault : Error}
    (accepted : checker.Resolves cache authorization (.ok held))
    (refused : checker.Resolves cache assertion (.error fault)) :
    ∃ after, checker.testCached cache authorization assertion = (.error fault, after) ∧
      cache.SameBut authorization.keys after := by
  obtain ⟨between, first, same, _⟩ := resolve_cached_accepted accepted
  have second := resolve_cached_refused (resolves_after_authorization same refused)
  refine ⟨between, ?_, same⟩
  rw [testCached, first]
  dsimp only
  rw [second]

theorem test_cached_decided {held : Authorization} {required : Assertion}
    (accepted : checker.Resolves cache authorization (.ok held))
    (demanded : checker.Resolves cache assertion (.ok required)) :
    ∃ after, checker.testCached cache authorization assertion =
        (.ok (checker.evaluate held required), after) ∧
      cache.SameBut (authorization.keys ++ assertion.keys) after ∧
        after.Settled held authorization ∧ after.Settled required assertion := by
  obtain ⟨between, first, sameFirst, settled⟩ := resolve_cached_accepted accepted
  obtain ⟨after, second, sameSecond, settledLater⟩ :=
    resolve_cached_accepted (resolves_after_authorization sameFirst demanded)
  refine ⟨after, ?_, sameFirst.trans sameSecond, settled.kept (by decide) sameSecond,
    settledLater⟩
  rw [testCached, first]
  dsimp only
  rw [second]

theorem test_cached_parsed (checker : Checker) (cache : Cache) (held : Authorization)
    (required : Assertion) : checker.testCached cache (.parsed held) (.parsed required) =
      (checker.test (.parsed held) (.parsed required), cache) := by
  rw [testCached, test]
  dsimp only [resolveCached]
  cases @resolve checker .authorization (.parsed held) with
  | error fault => rfl
  | ok held =>
      dsimp only
      cases @resolve checker .assertion (.parsed required) <;> rfl

theorem stored_alike (alike : cache.Alike other) (kind : Kind) (raw : String) :
    stored cache kind raw = stored other kind raw := by
  apply Option.ext
  intro held
  rw [stored_eq_some_iff, stored_eq_some_iff]
  exact alike kind raw held.1 held.2

theorem parse_cached_alike (alike : cache.Alike other) (kind : Kind) (raw : String) :
    (parseCached cache kind raw).1 = (parseCached other kind raw).1 ∧
      (parseCached cache kind raw).2.Alike (parseCached other kind raw).2 := by
  rw [parseCached, parseCached, stored_alike alike]
  cases stored other kind raw with
  | some held => exact ⟨rfl, alike⟩
  | none =>
      cases Claims.parse kind raw with
      | error fault => exact ⟨rfl, alike⟩
      | ok claims => exact ⟨rfl, alike.set _ _⟩

theorem validate_into_alike (checker : Checker) (alike : cache.Alike other) (raw : String)
    (claims : List (Claim kind)) :
    (checker.validateInto cache kind raw claims).1 =
      (checker.validateInto other kind raw claims).1 ∧
      (checker.validateInto cache kind raw claims).2.Alike
        (checker.validateInto other kind raw claims).2 := by
  rw [validateInto, validateInto]
  cases checker.validate claims with
  | error fault => exact ⟨rfl, alike⟩
  | ok reduced => exact ⟨rfl, alike.set _ _⟩

theorem resolve_cached_alike (checker : Checker) (alike : cache.Alike other)
    (input : ClaimInput kind) :
    (checker.resolveCached cache input).1 = (checker.resolveCached other input).1 ∧
      (checker.resolveCached cache input).2.Alike (checker.resolveCached other input).2 := by
  cases input with
  | parsed claims => exact ⟨rfl, alike⟩
  | raw raw =>
      rw [resolveCached, resolveCached, stored_alike alike]
      cases stored other kind raw with
      | none =>
          cases Claims.parse kind raw with
          | error fault => exact ⟨rfl, alike⟩
          | ok claims => exact validate_into_alike checker alike raw claims
      | some held =>
          obtain ⟨claims, validated⟩ := held
          cases validated with
          | true => exact ⟨rfl, alike⟩
          | false => exact validate_into_alike checker alike raw claims

theorem test_cached_alike (checker : Checker) (alike : cache.Alike other)
    (authorization : ClaimInput .authorization) (assertion : ClaimInput .assertion) :
    (checker.testCached cache authorization assertion).1 =
        (checker.testCached other authorization assertion).1 ∧
      (checker.testCached cache authorization assertion).2.Alike
        (checker.testCached other authorization assertion).2 := by
  obtain ⟨answer, front⟩ := resolve_cached_alike checker alike authorization
  rw [testCached, testCached]
  generalize checker.resolveCached cache authorization = left at answer front
  generalize checker.resolveCached other authorization = right at answer front
  obtain ⟨outcome, between⟩ := left
  obtain ⟨_, beside⟩ := right
  cases answer
  cases outcome with
  | error fault => exact ⟨rfl, front⟩
  | ok held =>
      obtain ⟨answer, back⟩ := resolve_cached_alike checker front assertion
      dsimp only
      generalize checker.resolveCached between assertion = left at answer back
      generalize checker.resolveCached beside assertion = right at answer back
      obtain ⟨outcome, after⟩ := left
      obtain ⟨_, later⟩ := right
      cases answer
      cases outcome <;> exact ⟨rfl, back⟩

end Checker

namespace Call

/-- A call on the store itself that tells what is under a key, of whatever kind. -/
def Inspects : Call → Prop
  | .get _ | .contains _ => True
  | _ => False

variable {cache other : Cache}

theorem run_alike (alike : cache.Alike other) (checker : Checker) (call : Call) :
    (call.run checker cache).2.Alike (call.run checker other).2 ∧
      (¬ call.Inspects → (call.run checker cache).1 = (call.run checker other).1) := by
  cases call with
  | test authorization assertion =>
      obtain ⟨answer, after⟩ := Checker.test_cached_alike checker alike authorization assertion
      exact ⟨after, fun _ => congrArg (Except.map Answer.verdict) answer⟩
  | can authorization assertion =>
      obtain ⟨answer, after⟩ := Checker.test_cached_alike checker alike authorization assertion
      let granted : Verdict → Answer := fun verdict => .flag verdict.isGranted
      exact ⟨after, fun _ => congrArg (Except.map granted) answer⟩
  | authorize authorization assertion =>
      obtain ⟨answer, after⟩ := Checker.test_cached_alike checker alike
        (.parsed authorization) (.parsed assertion)
      exact ⟨after, fun _ => congrArg (Except.map Answer.verdict) answer⟩
  | parse kind raw =>
      obtain ⟨answer, after⟩ := Checker.parse_cached_alike alike kind raw
      exact ⟨after, fun _ => congrArg (Except.map (Answer.claims kind)) answer⟩
  | supports authorization => exact ⟨alike, fun _ => rfl⟩
  | get key => exact ⟨alike, fun unseen => absurd trivial unseen⟩
  | contains key => exact ⟨alike, fun unseen => absurd trivial unseen⟩
  | set key entry => exact ⟨alike.set key entry, fun _ => rfl⟩
  | clear => exact ⟨fun _ _ _ _ => Iff.rfl, fun _ => rfl⟩
  | name => exact ⟨alike, fun _ => rfl⟩

end Call

theorem run_calls_alike {cache other : Cache} (alike : cache.Alike other)
    {calls : List (Checker × Call)} (unseen : ∀ step ∈ calls, ¬ step.2.Inspects) :
    (runCalls cache calls).map Prod.fst = (runCalls other calls).map Prod.fst := by
  induction calls generalizing cache other with
  | nil => rfl
  | cons step rest ih =>
      obtain ⟨checker, call⟩ := step
      obtain ⟨here, later⟩ := List.forall_mem_cons.mp unseen
      obtain ⟨after, answer⟩ := Call.run_alike alike checker call
      rw [runCalls, runCalls, List.map_cons, List.map_cons, answer here, ih after later]

/-- Calls that are refused leave no trace, whatever is in the store. Reading that fails changes
nothing. Each input comes to what resolving it answers; a decision changes nothing when the
authorization is refused, and only the entry of the authorization when the assertion is; otherwise
it leaves validated entries for its strings and changes no others. Collections are validated and
decided on without a change, and so is the support of a string; consolidation is not given a store
at all. Entries of other kinds are never used: where no entry is of the right kind one of another
kind may be put, and no answer of a checker depends on it. -/
theorem refused_calls_leave_no_trace (checker : Checker) (cache : Cache) :
    (∀ kind raw fault, (Checker.parseCached cache kind raw).1 = .error fault →
      (Checker.parseCached cache kind raw).2 = cache) ∧
    (∀ (kind : Kind) (input : ClaimInput kind) (outcome : Except Error (List (Claim kind))),
      checker.Resolves cache input outcome ↔ (checker.resolveCached cache input).1 = outcome) ∧
    (∀ authorization assertion fault, checker.Resolves cache authorization (.error fault) →
      checker.testCached cache authorization assertion = (.error fault, cache)) ∧
    (∀ authorization assertion held fault, checker.Resolves cache authorization (.ok held) →
      checker.Resolves cache assertion (.error fault) →
        ∃ after, checker.testCached cache authorization assertion = (.error fault, after) ∧
          cache.SameBut authorization.keys after) ∧
    (∀ authorization assertion held required, checker.Resolves cache authorization (.ok held) →
      checker.Resolves cache assertion (.ok required) →
        ∃ after, checker.testCached cache authorization assertion =
            (.ok (checker.evaluate held required), after) ∧
          cache.SameBut (authorization.keys ++ assertion.keys) after ∧
            after.Settled held authorization ∧ after.Settled required assertion) ∧
    (∀ held required, checker.testCached cache (.parsed held) (.parsed required) =
      (checker.test (.parsed held) (.parsed required), cache)) ∧
    (∀ kind (claims : List (Claim kind)), checker.resolveCached cache (.parsed claims) =
      ((checker.validate claims).map Reduced.claims, cache)) ∧
    (∀ text, Call.run checker cache (.supports text) =
      (.ok (.flag (checker.supports text)), cache)) ∧
    (∀ kind raw, (∀ claims validated, ¬ cache.Offers kind raw claims validated) →
      (Checker.parseCached cache kind raw).1 = Claims.parse kind raw) ∧
    (∀ kind raw (entry : CacheEntry), entry.cached.kind ≠ kind →
      (∀ claims validated, ¬ cache.Offers kind raw claims validated) →
        cache.Alike (cache.set (cacheKey kind raw) entry)) ∧
    ∀ other, cache.Alike other → ∀ calls, (∀ step ∈ calls, ¬ step.2.Inspects) →
      (runCalls cache calls).map Prod.fst = (runCalls other calls).map Prod.fst := by
  refine ⟨?_, fun _ => Checker.resolves_iff_answered, ?_, ?_, ?_, ?_, ?_, fun _ => rfl, ?_,
    ?_, ?_⟩
  · intro kind raw fault refused
    exact Checker.parse_cached_refused refused
  · intro authorization assertion fault refused
    exact Checker.test_cached_unauthorized refused assertion
  · intro authorization assertion held fault accepted refused
    exact Checker.test_cached_unasserted accepted refused
  · intro authorization assertion held required accepted demanded
    exact Checker.test_cached_decided accepted demanded
  · intro held required
    exact Checker.test_cached_parsed checker cache held required
  · intro kind claims
    exact Checker.resolve_cached_parsed checker cache claims
  · intro kind raw nothing
    exact Checker.parse_cached_vacant nothing
  · intro kind raw entry stray vacant
    exact Cache.alike_set_stray kind raw stray vacant
  · intro other alike calls unseen
    exact run_calls_alike alike unseen

/-- A validated entry of the wrong kind, one that no model has validated, and one that is to be
validated. -/
def strayStore : Cache where
  entries := [
    ("assertion/role:viewer",
     ⟨⟨.grants, [⟨.atom "guest", ⟨.atom "admin", none⟩⟩]⟩, true⟩),
    ("authorization/guest", ⟨⟨.authorization, [⟨.atom "guest", none⟩]⟩, false⟩),
    ("authorization/r:reader",
     ⟨⟨.authorization, [⟨.composite "r" "reader", none⟩]⟩, false⟩)]

/-- An unknown permission is refused on either side, and only what is known leaves an entry. The
stray delegation stands for no assertion. -/
theorem refused_guest_leaves_no_trace :
    roleChecker.testCached strayStore (.raw "guest") (.raw "role:viewer") =
        (.error (.unknownClaim "guest"), strayStore) ∧
      (∃ after, roleChecker.testCached strayStore (.raw "r:reader") (.raw "guest") =
          (.error (.unknownClaim "guest"), after) ∧
        strayStore.SameBut ["authorization/r:reader"] after) ∧
      ∃ after, roleChecker.testCached strayStore (.raw "r:reader") (.raw "role:viewer") =
          (.ok .granted, after) ∧
        strayStore.SameBut ["authorization/r:reader", "assertion/role:viewer"] after ∧
          after.Offers .authorization "r:reader" [⟨.composite "role" "viewer", none⟩] true ∧
            after.Offers .assertion "role:viewer"
              [⟨⟨.composite "role" "viewer", none⟩, false⟩] true := by
  obtain ⟨_, _, unauthorized, unasserted, decided, _⟩ :=
    refused_calls_leave_no_trace roleChecker strayStore
  have guestHeld : strayStore.Offers .authorization "guest" [⟨.atom "guest", none⟩] false := rfl
  have readerHeld :
      strayStore.Offers .authorization "r:reader" [⟨.composite "r" "reader", none⟩] false :=
    rfl
  have strayed :
      ∀ claims validated, ¬ strayStore.Offers .assertion "role:viewer" claims validated := by
    intro claims validated offered
    have kinds : some Kind.grants = some Kind.assertion :=
      congrArg (Option.map fun entry : CacheEntry => entry.cached.kind) offered
    exact absurd kinds (by decide)
  have missing :
      ∀ claims validated, ¬ strayStore.Offers .assertion "guest" claims validated := by
    intro claims validated offered
    have present : false = true := congrArg Option.isSome offered
    exact absurd present (by decide)
  have guest : roleChecker.Resolves strayStore (@ClaimInput.raw .authorization "guest")
      (.error (.unknownClaim "guest")) := .unsettled guestHeld
  have reader : roleChecker.Resolves strayStore (@ClaimInput.raw .authorization "r:reader")
      (.ok [⟨.composite "role" "viewer", none⟩]) := .unsettled readerHeld
  have stranger : roleChecker.Resolves strayStore (@ClaimInput.raw .assertion "guest")
      (.error (.unknownClaim "guest")) := .vacant missing
  have viewer : roleChecker.Resolves strayStore (@ClaimInput.raw .assertion "role:viewer")
      (.ok [⟨⟨.composite "role" "viewer", none⟩, false⟩]) := .vacant strayed
  have granted : roleChecker.evaluate [⟨.composite "role" "viewer", none⟩]
      [⟨⟨.composite "role" "viewer", none⟩, false⟩] = .granted := by
    decide +kernel
  obtain ⟨after, answer, same, held, required⟩ := decided _ _ _ _ reader viewer
  rw [granted] at answer
  exact ⟨unauthorized _ _ _ guest, unasserted _ _ _ _ reader stranger, after, answer, same, held,
    required⟩

end ClaimPolicy

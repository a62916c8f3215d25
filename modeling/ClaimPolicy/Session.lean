import ClaimPolicy.Cache

/-!
Calls of checkers that share one store, each with its answer and the store it leaves.
-/
namespace ClaimPolicy

inductive Call where
  | test (authorization : ClaimInput .authorization) (assertion : ClaimInput .assertion)
  | can (authorization : ClaimInput .authorization) (assertion : ClaimInput .assertion)
  | authorize (authorization : Authorization) (assertion : Assertion)
  | parse (kind : Kind) (raw : String)
  | supports (authorization : String)
  | get (key : String)
  | contains (key : String)
  | set (key : String) (entry : CacheEntry)
  | clear
  | name

inductive Answer where
  | verdict (verdict : Verdict)
  | flag (value : Bool)
  | claims (kind : Kind) (claims : List (Claim kind))
  | entry (entry : Option CacheEntry)
  | name (name : String)
  | done

def Call.run (checker : Checker) (cache : Cache) : Call → Except Error Answer × Cache
  | .test authorization assertion =>
      let (verdict, cache) := checker.testCached cache authorization assertion
      (verdict.map .verdict, cache)
  | .can authorization assertion =>
      let (verdict, cache) := checker.testCached cache authorization assertion
      (verdict.map fun verdict => .flag verdict.isGranted, cache)
  | .authorize authorization assertion =>
      let (verdict, cache) := checker.testCached cache (.parsed authorization) (.parsed assertion)
      (verdict.map .verdict, cache)
  | .parse kind raw =>
      let (claims, cache) := Checker.parseCached cache kind raw
      (claims.map (.claims kind), cache)
  | .supports authorization => (.ok (.flag (checker.supports authorization)), cache)
  | .get key => (.ok (.entry (cache.get? key)), cache)
  | .contains key => (.ok (.flag (cache.contains key)), cache)
  | .set key entry => (.ok .done, cache.set key entry)
  | .clear => (.ok .done, cache.clear)
  | .name => (.ok (.name Cache.name), cache)

/-- The answers to calls made one after the other, each with the store after it. -/
def runCalls (cache : Cache) : List (Checker × Call) → List (Except Error Answer × Cache)
  | [] => []
  | (checker, call) :: rest =>
      let (answer, cache) := call.run checker cache
      (answer, cache) :: runCalls cache rest

end ClaimPolicy

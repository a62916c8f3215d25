import ClaimPolicy.Proofs.Store
import ClaimPolicy.Proofs.Subsumption
import ClaimPolicy.Session

/-!
Sharing a store changes no answer. Calls of checkers with one model, in any order and with any
failures among them, are answered as without the store, and leave only right entries in it; a
validated entry stays until the store is cleared.
-/
namespace ClaimPolicy

namespace Call

/-- Every call but the one that stores an entry of the caller's own. -/
def Ordinary : Call → Prop
  | .set _ _ => False
  | _ => True

/-- The answer is the one that a checker without a store gives. Reading may also give the validated
form of what it reads; calls on the store itself have no counterpart. -/
def Answered (checker : Checker) : Call → Except Error Answer → Prop
  | .test authorization assertion, answer =>
      answer = (checker.test authorization assertion).map .verdict
  | .can authorization assertion, answer =>
      answer = (checker.can authorization assertion).map .flag
  | .authorize authorization assertion, answer =>
      answer = (checker.authorize authorization assertion).map .verdict
  | .parse kind raw, answer =>
      ∃ outcome, checker.Reads kind raw outcome ∧ answer = outcome.map (.claims kind)
  | .supports authorization, answer => answer = .ok (.flag (checker.supports authorization))
  | _, _ => True

variable {checker : Checker} {cache : Cache}

theorem run_test_right (faithful : cache.Faithful checker)
    (authorization : ClaimInput .authorization) (assertion : ClaimInput .assertion) :
    Answered checker (.test authorization assertion)
        (run checker cache (.test authorization assertion)).1 ∧
      cache.Advances checker (run checker cache (.test authorization assertion)).2 := by
  obtain ⟨answer, advance⟩ := Checker.test_cached_right faithful authorization assertion
  exact ⟨congrArg (Except.map Answer.verdict) answer, advance⟩

theorem run_can_right (faithful : cache.Faithful checker)
    (authorization : ClaimInput .authorization) (assertion : ClaimInput .assertion) :
    Answered checker (.can authorization assertion)
        (run checker cache (.can authorization assertion)).1 ∧
      cache.Advances checker (run checker cache (.can authorization assertion)).2 := by
  obtain ⟨answer, advance⟩ := Checker.test_cached_right faithful authorization assertion
  apply And.intro _ advance
  rw [Answered, Checker.can, ← answer, run]
  cases checker.testCached cache authorization assertion with
  | mk verdict after => cases verdict <;> rfl

theorem run_parse_right (faithful : cache.Faithful checker) (kind : Kind) (raw : String) :
    Answered checker (.parse kind raw) (run checker cache (.parse kind raw)).1 ∧
      cache.Advances checker (run checker cache (.parse kind raw)).2 := by
  obtain ⟨reads, advance⟩ := Checker.parse_cached_right faithful kind raw
  exact ⟨⟨_, reads, rfl⟩, advance⟩

/-- One call. Clearing is the only one after which a validated entry may be gone. -/
theorem run_right (faithful : cache.Faithful checker) {call : Call} (ordinary : call.Ordinary) :
    call.Answered checker (call.run checker cache).1 ∧
      (call.run checker cache).2.Faithful checker ∧
        (call ≠ .clear → cache.Keeps (call.run checker cache).2) := by
  cases call with
  | test authorization assertion =>
      obtain ⟨answer, advance⟩ := run_test_right faithful authorization assertion
      exact ⟨answer, advance.faithful, fun _ => advance.keeps⟩
  | can authorization assertion =>
      obtain ⟨answer, advance⟩ := run_can_right faithful authorization assertion
      exact ⟨answer, advance.faithful, fun _ => advance.keeps⟩
  | authorize authorization assertion =>
      obtain ⟨answer, advance⟩ :=
        run_test_right faithful (.parsed authorization) (.parsed assertion)
      exact ⟨answer, advance.faithful, fun _ => advance.keeps⟩
  | parse kind raw =>
      obtain ⟨answer, advance⟩ := run_parse_right faithful kind raw
      exact ⟨answer, advance.faithful, fun _ => advance.keeps⟩
  | supports authorization => exact ⟨rfl, faithful, fun _ => Cache.keeps_refl cache⟩
  | get key => exact ⟨trivial, faithful, fun _ => Cache.keeps_refl cache⟩
  | contains key => exact ⟨trivial, faithful, fun _ => Cache.keeps_refl cache⟩
  | set key entry => exact absurd ordinary id
  | clear => exact ⟨trivial, Cache.empty_faithful checker, fun other => absurd rfl other⟩
  | name => exact ⟨trivial, faithful, fun _ => Cache.keeps_refl cache⟩

end Call

def storeAfter (cache : Cache) (calls : List (Checker × Call)) : Cache :=
  match (runCalls cache calls).getLast? with
  | some (_, last) => last
  | none => cache

theorem store_after_cons (cache : Cache) (checker : Checker) (call : Call)
    (rest : List (Checker × Call)) :
    storeAfter cache ((checker, call) :: rest) = storeAfter (call.run checker cache).2 rest := by
  rw [storeAfter, storeAfter, runCalls, List.getLast?_cons]
  cases (runCalls (call.run checker cache).2 rest).getLast? <;> rfl

theorem store_after_append (cache : Cache) (before middle : List (Checker × Call)) :
    storeAfter cache (before ++ middle) = storeAfter (storeAfter cache before) middle := by
  induction before generalizing cache with
  | nil => rfl
  | cons step before ih =>
      obtain ⟨checker, call⟩ := step
      rw [List.cons_append, store_after_cons, store_after_cons, ih]

/-- Calls that go to checkers with one model and store no entry of the caller's own. -/
def Shared (model : Option Model) (calls : List (Checker × Call)) : Prop :=
  ∀ step ∈ calls, step.1.model = model ∧ step.2.Ordinary

namespace Shared

variable {model : Option Model} {before after : List (Checker × Call)}

theorem of_append (shared : Shared model (before ++ after)) :
    Shared model before ∧ Shared model after :=
  List.forall_mem_append.mp shared

theorem of_cons {step : Checker × Call} {rest : List (Checker × Call)}
    (shared : Shared model (step :: rest)) :
    step.1 = ⟨model⟩ ∧ step.2.Ordinary ∧ Shared model rest := by
  obtain ⟨⟨same, ordinary⟩, later⟩ := List.forall_mem_cons.mp shared
  exact ⟨congrArg Checker.mk same, ordinary, later⟩

end Shared

variable {model : Option Model} {cache : Cache} {calls : List (Checker × Call)}

theorem run_calls_right (shared : Shared model calls) (faithful : cache.Faithful ⟨model⟩) :
    List.Forall₂ (fun step outcome =>
      step.2.Answered ⟨model⟩ outcome.1 ∧ outcome.2.Faithful ⟨model⟩)
        calls (runCalls cache calls) := by
  induction calls generalizing cache with
  | nil => exact .nil
  | cons step rest ih =>
      obtain ⟨checker, call⟩ := step
      obtain ⟨rfl, ordinary, later⟩ := shared.of_cons
      obtain ⟨answer, right, _⟩ := Call.run_right faithful ordinary
      exact .cons ⟨answer, right⟩ (ih later right)

theorem store_after_right (shared : Shared model calls) (faithful : cache.Faithful ⟨model⟩) :
    (storeAfter cache calls).Faithful ⟨model⟩ ∧
      ((∀ step ∈ calls, step.2 ≠ .clear) → cache.Keeps (storeAfter cache calls)) := by
  induction calls generalizing cache with
  | nil => exact ⟨faithful, fun _ => Cache.keeps_refl cache⟩
  | cons step rest ih =>
      obtain ⟨checker, call⟩ := step
      obtain ⟨rfl, ordinary, later⟩ := shared.of_cons
      obtain ⟨_, right, kept⟩ := Call.run_right faithful ordinary
      obtain ⟨lastRight, lastKept⟩ := ih later right
      rw [store_after_cons]
      apply And.intro lastRight
      intro uncleared
      have unclear := uncleared _ List.mem_cons_self
      have restUnclear := fun step member => uncleared step (List.mem_cons_of_mem _ member)
      exact Cache.keeps_trans (kept unclear) (lastKept restUnclear)

/-- Checkers with one model share a store that is empty at first. Every call is answered as without
the store and leaves only right entries in it, and what a run without a clearing finds validated it
leaves as it was. -/
theorem store_is_transparent (model : Option Model) (calls : List (Checker × Call))
    (shared : Shared model calls) :
    List.Forall₂ (fun step outcome =>
      step.2.Answered ⟨model⟩ outcome.1 ∧ outcome.2.Faithful ⟨model⟩)
        calls (runCalls Cache.empty calls) ∧
      ∀ before middle after, calls = before ++ middle ++ after →
        (∀ step ∈ middle, step.2 ≠ .clear) →
          (storeAfter Cache.empty before).Keeps (storeAfter Cache.empty (before ++ middle)) := by
  have start := Cache.empty_faithful ⟨model⟩
  apply And.intro (run_calls_right shared start)
  intro before middle after parts uncleared
  subst parts
  obtain ⟨front, _⟩ := shared.of_append
  obtain ⟨beforeShared, middleShared⟩ := front.of_append
  rw [store_after_append]
  have between := (store_after_right beforeShared start).1
  exact (store_after_right middleShared between).2 uncleared

def readerWritten : String := "r:reader role:*"

def roleSession : List (Checker × Call) := [
  (roleChecker, .parse .authorization readerWritten),
  (roleChecker, .can (.raw readerWritten) (.raw "role:Viewer")),
  (⟨some roleModel⟩, .test (.raw readerWritten) (.raw "!role:*")),
  (roleChecker, .clear)]

/-- The first call stores claims as read, the second one validates them, and the third one finds
them validated and leaves them so, until the store is cleared. -/
theorem role_session_transparent :
    Shared (some roleModel) roleSession ∧
      (runCalls Cache.empty roleSession).map Prod.fst = [
        .ok (.claims .authorization
          [⟨.composite "r" "reader", none⟩, ⟨.composite "role" "*", none⟩]),
        .ok (.flag true), .ok (.verdict (.denied ⟨⟨.composite "role" "*", none⟩, true⟩)),
        .ok .done] ∧
      List.Forall₂ (fun step outcome =>
        step.2.Answered roleChecker outcome.1 ∧ outcome.2.Faithful roleChecker)
          roleSession (runCalls Cache.empty roleSession) ∧
      (storeAfter Cache.empty (roleSession.take 1)).get? (cacheKey .authorization readerWritten) =
        some ⟨⟨.authorization,
          [⟨.composite "r" "reader", none⟩, ⟨.composite "role" "*", none⟩]⟩, false⟩ ∧
      (storeAfter Cache.empty (roleSession.take 2)).get? (cacheKey .authorization readerWritten) =
        some ⟨⟨.authorization, [⟨.composite "role" "viewer", none⟩]⟩, true⟩ ∧
      (storeAfter Cache.empty (roleSession.take 3)).get? (cacheKey .authorization readerWritten) =
        some ⟨⟨.authorization, [⟨.composite "role" "viewer", none⟩]⟩, true⟩ ∧
      (storeAfter Cache.empty roleSession).get? (cacheKey .authorization readerWritten) = none := by
  have shared : Shared (some roleModel) roleSession := by
    simp [Shared, roleSession, roleChecker, Call.Ordinary]
  obtain ⟨answered, kept⟩ := store_is_transparent (some roleModel) roleSession shared
  have uncleared : ∀ step ∈ (roleSession.drop 2).take 1, step.2 ≠ .clear := by
    simp [roleSession]
  have settled := kept (roleSession.take 2) _ (roleSession.drop 3) rfl uncleared
  have validated : (storeAfter Cache.empty (roleSession.take 2)).get?
      (cacheKey .authorization readerWritten) =
        some ⟨⟨.authorization, [⟨.composite "role" "viewer", none⟩]⟩, true⟩ := rfl
  exact ⟨shared, rfl, answered, rfl, validated, settled _ _ validated rfl, rfl⟩

end ClaimPolicy

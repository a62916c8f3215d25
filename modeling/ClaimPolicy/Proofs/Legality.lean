import ClaimPolicy.Proofs.Agreement
import ClaimPolicy.Proofs.Meaning

/-!
Which claims are legal under a model. A schema admits a token that it declares, by name or alias,
and the wildcard atom where it declares an atom. A claim is legal when its token, its scope and its
subject are admitted. Support, validation and decisions agree on that, and a refusal names the first
claim that is not legal.
-/
namespace ClaimPolicy

namespace Schema

/-- A token that claims may use: a declared one, all members of a declared composite, or any
atom. -/
def Admits (schema : Schema) (token : Token) : Prop :=
  (∃ target, schema.Spells token target) ∨
    token = .atom Name.wildcard ∧ ∃ declared, .atom declared ∈ schema.declarations

structure AdmitsClaim (schema : Schema) {kind : Kind} (claim : Claim kind) : Prop where
  token : schema.Admits (Claim.permission claim).token
  scope : ∀ scope ∈ (Claim.permission claim).scope, schema.Admits scope
  subject : ∀ subject ∈ Claim.subject claim, schema.Admits subject

theorem admits_claim_iff {schema : Schema} {kind : Kind} (claim : Claim kind) :
    schema.AdmitsClaim claim ↔ ∀ token ∈ Claim.tokens claim, schema.Admits token := by
  simp only [Claim.tokens, Permission.tokens, List.forall_mem_append, List.forall_mem_cons,
    Option.mem_toList]
  constructor
  · intro admitted
    exact ⟨admitted.subject, admitted.token, admitted.scope⟩
  · intro admitted
    exact ⟨admitted.2.1, admitted.2.2, admitted.1⟩

end Schema

namespace Checker

variable {checker : Checker} {kind : Kind}

theorem validate_eq_error_iff (claims : List (Claim kind)) (fault : Error) :
    checker.validate claims = .error fault ↔ ∃ before claim after,
      claims = before ++ claim :: after ∧ checker.Knows before ∧
        (¬ ∀ token ∈ Claim.tokens claim, checker.knows token = true) ∧
          fault = .unknownClaim (Claim.text claim) := by
  constructor
  · intro refused
    unfold validate at refused
    split at refused
    · next claim found =>
        obtain ⟨unknown, before, after, parts, known⟩ := List.find?_eq_some_iff_append.mp found
        cases refused
        refine ⟨before, claim, after, parts, ?_, by simpa using unknown, rfl⟩
        intro earlier member
        simpa using known earlier member
    · cases refused
  · intro first
    obtain ⟨before, claim, after, rfl, known, unknown, rfl⟩ := first
    have found : (before ++ claim :: after).find? (fun claim => !claim.tokens.all checker.knows) =
        some claim := by
      refine List.find?_eq_some_iff_append.mpr ⟨by simpa using unknown, before, after, rfl, ?_⟩
      intro earlier member
      simpa using known earlier member
    rw [validate, found]

theorem supports_iff (model : Model) (text : String) :
    supports ⟨some model⟩ text = true ↔
      ∃ claims, Claims.parse .authorization text = .ok claims ∧
        Knows ⟨some model⟩ claims := by
  unfold supports
  dsimp only
  cases Claims.parse .authorization text with
  | error fault => simp
  | ok claims => simp [Knows, knows]

theorem supports_iff_validates (model : Model) (text : String) :
    supports ⟨some model⟩ text = true ↔
      ∃ claims reduced, Claims.parse .authorization text = .ok claims ∧
        validate ⟨some model⟩ claims = .ok reduced := by
  rw [supports_iff]
  constructor
  · intro supported
    obtain ⟨claims, read, known⟩ := supported
    exact ⟨claims, _, read, validate_known known⟩
  · intro validated
    obtain ⟨claims, reduced, read, valid⟩ := validated
    exact ⟨claims, read, ((validate_eq_ok_iff claims reduced).mp valid).1⟩

theorem test_nothing (checker : Checker) (authorization : ClaimInput .authorization) :
    checker.test authorization (.raw "") =
      (checker.resolve authorization).map fun _ => .granted := by
  have nothing : checker.resolve (@ClaimInput.raw .assertion "") = .ok [] := rfl
  rw [test, nothing]
  cases checker.resolve authorization <;> rfl

theorem supports_iff_decides (model : Model) (text : String) :
    supports ⟨some model⟩ text = true ↔
      test ⟨some model⟩ (.raw text) (.raw "") = .ok .granted := by
  have resolved : supports ⟨some model⟩ text = true ↔
      ∃ held, resolve ⟨some model⟩ (@ClaimInput.raw .authorization text) = .ok held := by
    rw [supports_iff]
    constructor
    · intro supported
      obtain ⟨claims, read, known⟩ := supported
      exact ⟨_, (resolve_eq_ok_iff _ _).mpr ⟨claims, read, known, rfl⟩⟩
    · intro accepted
      obtain ⟨held, accepted⟩ := accepted
      obtain ⟨claims, read, known, _⟩ := (resolve_eq_ok_iff _ _).mp accepted
      exact ⟨claims, read, known⟩
  rw [resolved, test_nothing]
  cases resolve ⟨some model⟩ (@ClaimInput.raw .authorization text) <;> simp [Except.map]

end Checker

namespace Model.BuiltFrom

variable {model : Model} {schema : Schema} {kind : Kind}

theorem knows_claim_iff (built : model.BuiltFrom schema) (claim : Claim kind) :
    (∀ token ∈ Claim.tokens claim, Checker.knows ⟨some model⟩ token = true) ↔
      schema.AdmitsClaim claim := by
  rw [Schema.admits_claim_iff]
  exact forall₂_congr fun token _ => built.knows_iff token

theorem knows_claims_iff (built : model.BuiltFrom schema) (claims : List (Claim kind)) :
    Checker.Knows ⟨some model⟩ claims ↔ ∀ claim ∈ claims, schema.AdmitsClaim claim :=
  forall₂_congr fun claim _ => built.knows_claim_iff claim

theorem validate_fault_iff (built : model.BuiltFrom schema) (claims : List (Claim kind))
    (fault : Error) : Checker.validate ⟨some model⟩ claims = .error fault ↔
      ∃ before claim after, claims = before ++ claim :: after ∧
        (∀ earlier ∈ before, schema.AdmitsClaim earlier) ∧ ¬ schema.AdmitsClaim claim ∧
          fault = .unknownClaim (Claim.text claim) := by
  simp only [Checker.validate_eq_error_iff, built.knows_claims_iff, built.knows_claim_iff]

theorem validate_refuses_iff (built : model.BuiltFrom schema) (claims : List (Claim kind)) :
    (∃ fault, Checker.validate ⟨some model⟩ claims = .error fault) ↔
      ∃ claim ∈ claims, ¬ schema.AdmitsClaim claim := by
  constructor
  · intro refused
    obtain ⟨fault, refused⟩ := refused
    obtain ⟨before, claim, after, rfl, _, illegal, _⟩ :=
      (built.validate_fault_iff claims fault).mp refused
    exact ⟨claim, List.mem_append_right _ List.mem_cons_self, illegal⟩
  · intro present
    obtain ⟨claim, member, illegal⟩ := present
    cases outcome : Checker.validate ⟨some model⟩ claims with
    | error fault => exact ⟨fault, rfl⟩
    | ok reduced =>
        have known := ((Checker.validate_eq_ok_iff claims reduced).mp outcome).1
        exact absurd ((built.knows_claims_iff claims).mp known claim member) illegal

end Model.BuiltFrom

namespace Schema

/-- Support, validation and decisions agree on what is legal. A string is supported exactly when it
reads as an authorization that validates, and exactly when it can be decided on with nothing
required, which is then granted. A collection is refused exactly when it has a claim that the schema
does not admit, and the error shows the first such claim as it was given. -/
theorem legality_agreed (schema : Schema) (model : Model) (accepted : schema.build = .ok model) :
    (∀ text, Checker.supports ⟨some model⟩ text = true ↔
      ∃ claims reduced, Claims.parse .authorization text = .ok claims ∧
        Checker.validate ⟨some model⟩ claims = .ok reduced) ∧
    (∀ text, Checker.supports ⟨some model⟩ text = true ↔
      Checker.test ⟨some model⟩ (.raw text) (.raw "") = .ok .granted) ∧
    (∀ text verdict, Checker.test ⟨some model⟩ (.raw text) (.raw "") = .ok verdict →
      verdict = .granted) ∧
    ∀ (kind : Kind) (claims : List (Claim kind)),
      ((∃ fault, Checker.validate ⟨some model⟩ claims = .error fault) ↔
        ∃ claim ∈ claims, ¬ schema.AdmitsClaim claim) ∧
      ∀ fault, Checker.validate ⟨some model⟩ claims = .error fault ↔
        ∃ (before : List (Claim kind)) (claim : Claim kind) (after : List (Claim kind)),
          claims = before ++ claim :: after ∧
          (∀ earlier ∈ before, schema.AdmitsClaim earlier) ∧
            ¬ schema.AdmitsClaim claim ∧ fault = .unknownClaim (Claim.text claim) := by
  have built := built_from accepted
  refine ⟨Checker.supports_iff_validates model, Checker.supports_iff_decides model, ?_, ?_⟩
  · intro text verdict decided
    rw [Checker.test_nothing] at decided
    cases outcome : Checker.resolve ⟨some model⟩ (@ClaimInput.raw .authorization text) with
    | error fault =>
        rw [outcome] at decided
        cases decided
    | ok held =>
        rw [outcome] at decided
        exact (Except.ok.inj decided).symm
  · intro kind claims
    exact ⟨built.validate_refuses_iff claims, built.validate_fault_iff claims⟩

def anyoneReads : Claim .grants := ⟨.atom "*", ⟨.composite "R" "*", none⟩⟩

def guestReads : Claim .grants := ⟨.atom "guest", ⟨.composite "r" "Reader", none⟩⟩

/-- Aliases and wildcards are legal in each place; an unknown subject is found behind them. -/
theorem guest_subject_refused :
    roleSchema.build = .ok roleModel ∧
      Checker.test ⟨some roleModel⟩ (.raw "root *@R:*") (.raw "") = .ok .granted ∧
      Checker.validate ⟨some roleModel⟩ [anyoneReads, guestReads] =
        .error (.unknownClaim "guest>r:Reader") := by
  obtain ⟨_, decides, _, refuses⟩ := legality_agreed roleSchema roleModel role_schema_builds
  have supported : Checker.supports ⟨some roleModel⟩ "root *@R:*" = true := by decide +kernel
  have family : roleSchema.Admits (.composite "R" "*") :=
    .inl ⟨_, .family (List.mem_cons_of_mem _ List.mem_cons_self)
      ⟨"r", by decide, by decide +kernel⟩⟩
  have anyone : roleSchema.Admits (.atom "*") := .inr ⟨rfl, _, List.mem_cons_self⟩
  have legal : roleSchema.AdmitsClaim anyoneReads := by
    refine ⟨family, nofun, ?_⟩
    intro subject same
    cases same
    exact anyone
  have guest : ¬ roleSchema.Admits (.atom "guest") := by
    intro admitted
    have known := ((built_from role_schema_builds).knows_iff _).mpr admitted
    exact absurd known (by decide +kernel)
  have illegal : ¬ roleSchema.AdmitsClaim guestReads :=
    fun admitted => guest (admitted.subject _ rfl)
  refine ⟨role_schema_builds, (decides _).mp supported, ?_⟩
  refine ((refuses .grants [anyoneReads, guestReads]).2 _).mpr
    ⟨[anyoneReads], guestReads, [], rfl, ?_⟩
  exact ⟨List.forall_mem_singleton.mpr legal, illegal, by decide +kernel⟩

end Schema

end ClaimPolicy

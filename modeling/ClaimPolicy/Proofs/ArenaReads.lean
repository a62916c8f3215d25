import ClaimPolicy.Model.Export
import ClaimPolicy.Proofs.Matching
import ClaimPolicy.Proofs.MatchWalk

/-!
Reads of the arena. Look-up, matching and export read definitions at places that the model itself
names, and give nothing where there is no definition. Here the same computations stop instead at the
first place outside the arena, and name it. In a well-formed model whose roots and children lie
inside they never stop, so that each read finds its definition.
-/
namespace ClaimPolicy.Model

def lookupRootChecked (model : Model) (name : String) (kind : DefinitionKind) :
    Except Nat (Option Nat) :=
  match model.lookup none name with
  | none => .ok none
  | some id => do
      let definition ← model.fetch id
      return if definition.kind == kind then some id else none

def findIdChecked (model : Model) (token : Token) (mode : LookupMode) : Except Nat (Option Nat) :=
  match token with
  | .atom name => model.lookupRootChecked name .atom
  | .composite parent child => do
      match ← model.lookupRootChecked parent .composite with
      | none => return none
      | some composite =>
          if child == Name.wildcard then
            match mode with
            | .claim => return some composite
            | .strict => return none
          else return model.lookup (some composite) child

def findChecked (model : Model) (token : Token) (mode : LookupMode) :
    Except Nat (Option Definition) := do
  match ← model.findIdChecked token mode with
  | none => return none
  | some id => return some (← model.fetch id)

def canonicalChecked (model : Model) (token : Token) : Except Nat (Option Token) :=
  return (← model.findChecked token .claim).map Definition.token

def tokenMatchChecked (model : Model) (source target : Token) : Except Nat Bool := do
  let source := (← model.canonicalChecked source).getD source
  let target := (← model.canonicalChecked target).getD target
  if Token.meets model.case source target then return true
  match ← model.findIdChecked source .strict with
  | none => return false
  | some start =>
      model.walkFrom target ((Array.replicate model.size false).setIfInBounds start true) [start]

def rootsOfChecked (model : Model) (kind : DefinitionKind) : Except Nat (List Definition) :=
  return (← model.roots.mapM model.fetch).filter fun definition => definition.kind == kind

def declarationOfChecked (model : Model) (definition : Definition) :
    Except Nat TokenDeclaration := do
  let included ← definition.includes.mapM model.fetch
  return ⟨definition.name, definition.aliases, included.map fun target => target.token.text⟩

def compositeOfChecked (model : Model) (definition : Definition) :
    Except Nat CompositeDeclaration := do
  let members ← definition.children.mapM model.fetch
  return ⟨definition.name, definition.aliases, ← members.mapM model.declarationOfChecked⟩

def toDocumentChecked (model : Model) : Except Nat Document := do
  let atoms ← model.rootsOfChecked .atom
  let composites ← model.rootsOfChecked .composite
  return ⟨model.case == .sensitive, ← atoms.mapM model.declarationOfChecked,
    ← composites.mapM model.compositeOfChecked⟩

variable {model : Model}

theorem map_checked {First Second : Type} {checked : First → Except Nat Second}
    {plain : First → Second} {values : List First}
    (each : ∀ value ∈ values, checked value = .ok (plain value)) :
    values.mapM checked = .ok (values.map plain) := by
  induction values with
  | nil => rfl
  | cons first rest ih =>
      obtain ⟨here, later⟩ := List.forall_mem_cons.mp each
      rw [List.mapM_cons, here, ih later]
      rfl

theorem fetch_all {ids : List Nat} (inside : ∀ id ∈ ids, id < model.size) :
    ids.mapM model.fetch = .ok (ids.filterMap model.get?) := by
  induction ids with
  | nil => rfl
  | cons id ids ih =>
      obtain ⟨here, later⟩ := List.forall_mem_cons.mp inside
      obtain ⟨definition, found⟩ := get_of_lt here
      rw [List.mapM_cons, fetch_eq_ok found, ih later, List.filterMap_cons_some found]
      rfl

theorem lookup_root_checked (indexed : model.Indexed) (name : String) (kind : DefinitionKind) :
    model.lookupRootChecked name kind = .ok (model.lookupRoot name kind) := by
  rw [lookupRootChecked, lookupRoot]
  cases listed : model.lookup none name with
  | none => rfl
  | some id =>
      obtain ⟨definition, found, _⟩ := indexed.lookup_iff.mp listed
      simp [fetch_eq_ok found, found, Option.filter, bind, Except.bind, pure, Except.pure]

theorem find_id_checked (indexed : model.Indexed) (token : Token) (mode : LookupMode) :
    model.findIdChecked token mode = .ok (model.findId token mode) := by
  cases token with
  | atom name => exact lookup_root_checked indexed name .atom
  | composite parent child =>
      rw [findIdChecked, findId, lookup_root_checked indexed]
      cases model.lookupRoot parent .composite with
      | none => rfl
      | some composite =>
          by_cases wild : child = Name.wildcard
          · cases mode <;> simp [wild, bind, Except.bind, pure, Except.pure]
          · simp [wild, bind, Except.bind, pure, Except.pure]

theorem find_checked (indexed : model.Indexed) (token : Token) (mode : LookupMode) :
    model.findChecked token mode = .ok (model.find token mode) := by
  rw [findChecked, find, find_id_checked indexed]
  cases found : model.findId token mode with
  | none => rfl
  | some id =>
      obtain ⟨definition, here⟩ := find_id_found indexed found
      simp [fetch_eq_ok here, here, bind, Except.bind, pure, Except.pure]

theorem canonical_checked (indexed : model.Indexed) (token : Token) :
    model.canonicalChecked token = .ok (model.canonical token) := by
  rw [canonicalChecked, canonical, find_checked indexed]
  rfl

theorem token_match_checked (wellFormed : model.WellFormed) (source target : Token) :
    model.tokenMatchChecked source target = .ok (model.tokenMatch source target) := by
  have indexed := wellFormed.toIndexed
  have spelled : ∀ token, (model.canonical token).getD token = model.canonicalOrSelf token :=
    fun _ => rfl
  simp only [tokenMatchChecked, tokenMatch, canonical_checked indexed, find_id_checked indexed,
    bind, Except.bind, pure, Except.pure, spelled]
  split
  · next met => rw [met, Bool.true_or]
  · next unmet =>
      rw [Bool.not_eq_true] at unmet
      rw [unmet, Bool.false_or]
      cases started : model.findId (model.canonicalOrSelf source) .strict with
      | none => rfl
      | some start =>
          obtain ⟨definition, found⟩ := find_id_found indexed started
          -- The start carries the spelling that was compared already.
          have own : definition.token = model.canonicalOrSelf source := by
            rw [← canonical_or_self_of_find (find_claim_of_strict started) found,
              canonical_or_self_idempotent indexed]
          have unmetThere : model.meetsAt (model.canonicalOrSelf target) start = false := by
            rw [meetsAt, found, Option.any_some, own]
            exact unmet
          exact walk_decides wellFormed (lt_of_get found) unmetThere

theorem declaration_of_checked (wellFormed : model.WellFormed) {id : Nat} {definition : Definition}
    (found : model.get? id = some definition) :
    model.declarationOfChecked definition = .ok (model.declarationOf definition) := by
  rw [declarationOfChecked, fetch_all (includes_inside wellFormed found)]
  simp [declarationOf, includeTokens, bind, Except.bind, pure, Except.pure]

theorem composite_of_checked (wellFormed : model.WellFormed) {definition : Definition}
    (inside : ∀ child ∈ definition.children, child < model.size) :
    model.compositeOfChecked definition = .ok (model.compositeOf definition) := by
  have members : ∀ member ∈ definition.children.filterMap model.get?,
      model.declarationOfChecked member = .ok (model.declarationOf member) := by
    intro member listed
    obtain ⟨id, _, found⟩ := List.mem_filterMap.mp listed
    exact declaration_of_checked wellFormed found
  rw [compositeOfChecked, fetch_all inside]
  simp only [bind, Except.bind, map_checked members]
  rfl

theorem to_document_checked (wellFormed : model.WellFormed)
    (rootsInside : ∀ id ∈ model.roots, id < model.size)
    (childrenInside : ∀ id definition, model.get? id = some definition →
      ∀ child ∈ definition.children, child < model.size) :
    model.toDocumentChecked = .ok model.toDocument := by
  have roots : ∀ kind, model.rootsOfChecked kind = .ok (model.rootsOf kind) := by
    intro kind
    rw [rootsOfChecked, fetch_all rootsInside]
    rfl
  have standing : ∀ kind, ∀ definition ∈ model.rootsOf kind,
      ∃ id, model.get? id = some definition := by
    intro kind definition listed
    obtain ⟨id, _, found⟩ := List.mem_filterMap.mp (List.mem_filter.mp listed).1
    exact ⟨id, found⟩
  have atoms : ∀ definition ∈ model.rootsOf .atom,
      model.declarationOfChecked definition = .ok (model.declarationOf definition) := by
    intro definition listed
    obtain ⟨_, found⟩ := standing .atom definition listed
    exact declaration_of_checked wellFormed found
  have composites : ∀ definition ∈ model.rootsOf .composite,
      model.compositeOfChecked definition = .ok (model.compositeOf definition) := by
    intro definition listed
    obtain ⟨id, found⟩ := standing .composite definition listed
    exact composite_of_checked wellFormed (childrenInside id definition found)
  simp only [toDocumentChecked, roots, bind, Except.bind, map_checked atoms,
    map_checked composites]
  rfl

end ClaimPolicy.Model

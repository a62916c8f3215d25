import ClaimPolicy.Proofs.ArenaReads
import ClaimPolicy.Proofs.ClaimText
import ClaimPolicy.Proofs.Families

/-!
Declarations in the spelling of a model: aliases in order, and each include written as the full
token that it names, without repeats. Full tokens are read back from their text and found again
under it, so a declaration that is respelled takes the same names and resolves to the same includes
as before. Respelling goes through the layout declaration by declaration.
-/
namespace ClaimPolicy

theorem Token.parse_text {token : Token} (legal : token.Legal) :
    Token.parse token.text = .ok token :=
  (Token.parse_chars_eq_ok _ _).mpr ⟨rfl, legal⟩

namespace Model

variable {model : Model} {schema : Schema}

theorem name_legal (indexed : model.Indexed) {id : Nat} {definition : Definition}
    (found : model.get? id = some definition) : Name.Legal definition.name :=
  ((Name.declaration_fault_eq_none_iff _).mp (indexed.named found _ List.mem_cons_self)).1

theorem token_legal (indexed : model.Indexed) {id : Nat} {definition : Definition}
    (found : model.get? id = some definition) : definition.token.Legal := by
  have own := name_legal indexed found
  cases indexed.spelled found with
  | atom _ _ spelling =>
      rw [spelling]
      simpa [Token.Legal, Token.parts] using own
  | composite _ _ spelling =>
      have wild : Name.Legal Name.wildcard := by decide
      rw [spelling]
      simpa [Token.Legal, Token.parts] using ⟨own, wild⟩
  | member _ _ owner ownerFound _ _ spelling =>
      rw [spelling]
      simpa [Token.Legal, Token.parts] using ⟨name_legal indexed ownerFound, own⟩

def textAt (model : Model) (id : Nat) : Option String :=
  (model.get? id).map fun definition => definition.token.text

theorem text_at_eq_some_iff (id : Nat) (text : String) :
    model.textAt id = some text ↔ ∃ token, model.TokenAt id token ∧ token.text = text := by
  simp only [textAt, Option.map_eq_some_iff, TokenAt]
  grind

theorem text_at_injective (indexed : model.Indexed) {first second : Nat} {text : String}
    (left : model.textAt first = some text) (right : model.textAt second = some text) :
    first = second := by
  obtain ⟨token, stands, rfl⟩ := (text_at_eq_some_iff first _).mp left
  obtain ⟨other, otherStands, same⟩ := (text_at_eq_some_iff second _).mp right
  obtain ⟨definition, found, rfl⟩ := stands
  obtain ⟨otherDefinition, otherFound, rfl⟩ := otherStands
  have read := Token.parse_text (token_legal indexed otherFound)
  rw [same, Token.parse_text (token_legal indexed found)] at read
  exact token_at_unique indexed ⟨definition, found, Except.ok.inj read⟩ ⟨_, otherFound, rfl⟩

theorem resolves_text (indexed : model.Indexed) {id : Nat} {definition : Definition}
    (found : model.get? id = some definition) (concrete : definition.kind ≠ .composite) :
    model.Resolves definition.token.text id :=
  ⟨definition.token, Token.parse_text (token_legal indexed found),
    find_own_token_strict indexed found concrete⟩

def includedToken (model : Model) (included : String) : Option Token :=
  (Token.parse included).toOption.bind fun token => (model.find token .strict).map Definition.token

/-- Written includes as full tokens; of several that name one definition the first is kept. -/
def respellIncludes (model : Model) : List String → List String
  | [] => []
  | included :: rest =>
      match model.includedToken included with
      | none => respellIncludes model rest
      | some token => token.text :: (respellIncludes model rest).filter (· != token.text)

theorem included_token_eq_some_iff (included : String) (token : Token) :
    model.includedToken included = some token ↔
      ∃ id, model.Resolves included id ∧ model.TokenAt id token := by
  simp only [includedToken, Option.bind_eq_some_iff, Option.map_eq_some_iff, find, Resolves,
    TokenAt]
  cases Token.parse included with
  | error fault => simp [Except.toOption]
  | ok written => simp [Except.toOption]; grind

theorem FilledFrom.included_token_iff (filled : model.FilledFrom schema) (included : String)
    (token : Token) : model.includedToken included = some token ↔
      schema.Resolves included token := by
  rw [included_token_eq_some_iff, filled.resolves_iff]

theorem texts_without (indexed : model.Indexed) {target : Nat} {text : String}
    (spelled : model.textAt target = some text) (ids : List Nat) :
    (ids.filter (· != target)).filterMap model.textAt =
      (ids.filterMap model.textAt).filter (· != text) := by
  induction ids with
  | nil => rfl
  | cons id ids ih =>
      by_cases same : id = target
      · subst same
        simp [spelled, ih]
      · rw [List.filter_cons_of_pos (by simpa using same)]
        cases here : model.textAt id with
        | none => rw [List.filterMap_cons_none here, List.filterMap_cons_none here, ih]
        | some other =>
            have differs : other ≠ text := by
              intro equal
              exact same (text_at_injective indexed here (equal ▸ spelled))
            rw [List.filterMap_cons_some here, List.filterMap_cons_some here,
              List.filter_cons_of_pos (by simpa using differs), ih]

/-- What written includes resolve to is written in their respelling. The look-up goes through a
model with the same tokens at the same places. -/
theorem FilledFrom.texts_of_resolved {looked : Model} (lookedFilled : looked.FilledFrom schema)
    (filled : model.FilledFrom schema) {owner : String} {written : List String} {ids : List Nat}
    (resolved : looked.resolveIncludes owner written = .ok ids) :
    ids.filterMap model.textAt = model.respellIncludes written := by
  induction written generalizing ids with
  | nil =>
      cases resolved
      rfl
  | cons included rest ih =>
      rw [resolveIncludes] at resolved
      split at resolved
      · cases resolved
      · next target here =>
          obtain ⟨others, restResolved, same⟩ := (bind_eq_ok _ _ _).mp resolved
          cases same
          have resolves := (Model.resolves_iff _ _ _).mp here
          obtain ⟨definition, there⟩ :=
            find_id_found lookedFilled.indexed resolves.choose_spec.2
          have named : schema.Resolves included definition.token :=
            (lookedFilled.resolves_iff _ _).mpr ⟨target, resolves, definition, there, rfl⟩
          have stands : model.TokenAt target definition.token :=
            (filled.token_at_iff _ _).mpr
              ((lookedFilled.token_at_iff _ _).mp ⟨definition, there, rfl⟩)
          have spelled := (text_at_eq_some_iff target _).mpr ⟨_, stands, rfl⟩
          rw [List.filterMap_cons_some spelled, texts_without filled.indexed spelled,
            ih restResolved, respellIncludes, (filled.included_token_iff _ _).mpr named]

/-- Texts that name distinct definitions resolve to these, one by one. -/
theorem resolve_texts {owner : String} {spelled : Nat → Option String} {ids : List Nat}
    (distinct : ids.Nodup)
    (each : ∀ id ∈ ids, ∃ text, spelled id = some text ∧ model.Resolves text id) :
    model.resolveIncludes owner (ids.filterMap spelled) = .ok ids := by
  induction ids with
  | nil => rfl
  | cons id ids ih =>
      obtain ⟨fresh, restDistinct⟩ := List.nodup_cons.mp distinct
      obtain ⟨⟨text, here, resolves⟩, restEach⟩ := List.forall_mem_cons.mp each
      have kept : ids.filter (· != id) = ids :=
        List.filter_eq_self.mpr fun other member => by
          simpa using fun same : other = id => fresh (same ▸ member)
      rw [List.filterMap_cons_some here, resolveIncludes, (resolves_iff _ _ _).mpr resolves,
        ih restDistinct restEach]
      change Except.ok (id :: ids.filter (· != id)) = _
      rw [kept]

def respell (model : Model) (declared : TokenDeclaration) : TokenDeclaration where
  name := declared.name
  aliases := Name.sorted declared.aliases
  includes := model.respellIncludes declared.includes

def respellDeclaration (model : Model) : Declaration → Declaration
  | .atom declared => .atom (model.respell declared)
  | .composite declared => .composite
      { declared with
        aliases := Name.sorted declared.aliases
        members := declared.members.map model.respell }

def respellDraft (model : Model) (draft : Draft) : Draft :=
  { draft with
    aliases := Name.sorted draft.aliases
    includes := model.respellIncludes draft.includes }

theorem respell_draft_definition (model : Model) (draft : Draft) (includes : List Nat) :
    (model.respellDraft draft).definition includes = draft.definition includes := by
  simp only [Draft.definition, respellDraft, Name.sorted_sorted]
  rfl

theorem member_drafts_respelled (model : Model) (id : Nat) (name : String) (next : Nat)
    (members : List TokenDeclaration) :
    CompositeDeclaration.memberDrafts id name next (members.map model.respell) =
      (CompositeDeclaration.memberDrafts id name next members).map model.respellDraft := by
  induction members generalizing next with
  | nil => rfl
  | cons member members ih =>
      rw [List.map_cons, CompositeDeclaration.memberDrafts, ih]
      rfl

theorem drafts_respelled (model : Model) (place : Nat) (declared : Declaration) :
    (model.respellDeclaration declared).drafts place =
      (declared.drafts place).map model.respellDraft := by
  cases declared with
  | atom declared => rfl
  | composite declared =>
      simp only [respellDeclaration, Declaration.drafts, List.length_map, member_drafts_respelled]
      rfl

theorem lay_out_respelled (model : Model) (next : Nat) (declarations : List Declaration) :
    Schema.layOut next (declarations.map model.respellDeclaration) =
      (Schema.layOut next declarations).map model.respellDraft :=
  Schema.lay_out_map (drafts_respelled model) next declarations

end Model

end ClaimPolicy

import Mathlib.Data.List.Perm.Basic
import ClaimPolicy.Proofs.Agreement
import ClaimPolicy.Proofs.Extension

/-!
The order of declarations does not matter, nor that of the members of a composite, of aliases or of
the includes of a definition. Rearranged schemas keep each other's declarations, though the places
of the definitions change. So the one is legal with the other, and since all that a model says of
tokens can be read off its schema, the two models agree on it and give the same decisions.
-/
namespace ClaimPolicy

/-- The same items in another order, each up to a relation. -/
def Shuffled {Item : Type} (related : Item → Item → Prop) (left right : List Item) : Prop :=
  Relation.Comp (List.Forall₂ related) List.Perm left right

namespace Shuffled

variable {Item : Type} {related : Item → Item → Prop} {left right : List Item}

theorem of_perm (itself : ∀ item, related item item) (order : left.Perm right) :
    Shuffled related left right :=
  ⟨left, List.forall₂_same.mpr fun item _ => itself item, order⟩

theorem symm (back : ∀ {one other}, related one other → related other one)
    (shuffled : Shuffled related left right) : Shuffled related right left := by
  obtain ⟨middle, pairs, order⟩ := shuffled
  have returned : List.Forall₂ related middle left := pairs.flip.imp fun _ _ => back
  -- The order may be changed before the items are paired.
  have ordered : Relation.Comp List.Perm (List.Forall₂ related) right left :=
    ⟨middle, order.symm, returned⟩
  rw [← List.forall₂_comp_perm_eq_perm_comp_forall₂] at ordered
  exact ordered

theorem exists_of_mem (shuffled : Shuffled related left right) {item : Item}
    (member : item ∈ left) :
    ∃ other ∈ right, related item other := by
  obtain ⟨middle, pairs, order⟩ := shuffled
  obtain ⟨place, found⟩ := List.getElem?_of_mem member
  obtain ⟨other, there, alike⟩ := forall₂_at_left pairs found
  exact ⟨other, order.mem_iff.mp (List.mem_of_getElem? there), alike⟩

theorem flatMap_perm {Part : Type} {parts : Item → List Part}
    (agree : ∀ {one other}, related one other → (parts one).Perm (parts other))
    (shuffled : Shuffled related left right) : (left.flatMap parts).Perm (right.flatMap parts) := by
  obtain ⟨middle, pairs, order⟩ := shuffled
  refine List.Perm.trans ?_ (order.flatMap_right parts)
  clear order
  induction pairs with
  | nil => exact List.Perm.refl _
  | cons alike _ ih => exact (agree alike).append ih

theorem map_perm {Value : Type} {value : Item → Value}
    (agree : ∀ {one other}, related one other → value one = value other)
    (shuffled : Shuffled related left right) : (left.map value).Perm (right.map value) := by
  rw [List.map_eq_flatMap, List.map_eq_flatMap]
  apply shuffled.flatMap_perm
  intro one other alike
  rw [agree alike]

theorem length_eq (shuffled : Shuffled related left right) : left.length = right.length := by
  obtain ⟨_, pairs, order⟩ := shuffled
  rw [pairs.length_eq, order.length_eq]

end Shuffled

structure TokenDeclaration.Rearranges (first second : TokenDeclaration) : Prop where
  name : first.name = second.name
  aliases : first.aliases.Perm second.aliases
  includes : first.includes.Perm second.includes

structure CompositeDeclaration.Rearranges (first second : CompositeDeclaration) : Prop where
  name : first.name = second.name
  aliases : first.aliases.Perm second.aliases
  members : Shuffled TokenDeclaration.Rearranges first.members second.members

inductive Declaration.Rearranges : Declaration → Declaration → Prop
  | atom {one other : TokenDeclaration} (alike : one.Rearranges other) :
      Rearranges (.atom one) (.atom other)
  | composite {one other : CompositeDeclaration} (alike : one.Rearranges other) :
      Rearranges (.composite one) (.composite other)

/-- The same declarations in another order at every level. -/
structure Schema.Rearranges (first second : Schema) : Prop where
  mode : first.case = second.case
  declarations : Shuffled Declaration.Rearranges first.declarations second.declarations

namespace TokenDeclaration.Rearranges

variable {first second : TokenDeclaration}

theorem refl (declared : TokenDeclaration) : declared.Rearranges declared :=
  ⟨rfl, List.Perm.refl _, List.Perm.refl _⟩

theorem symm (alike : first.Rearranges second) : second.Rearranges first :=
  ⟨alike.name.symm, alike.aliases.symm, alike.includes.symm⟩

theorem kept (alike : first.Rearranges second) : first.KeptAs (· ⊆ ·) second :=
  ⟨alike.name, alike.aliases.subset, alike.includes.subset⟩

theorem keys_perm (alike : first.Rearranges second) : first.keys.Perm second.keys := by
  rw [keys, keys, alike.name]
  exact alike.aliases.cons _

end TokenDeclaration.Rearranges

namespace CompositeDeclaration.Rearranges

variable {first second : CompositeDeclaration}

theorem refl (declared : CompositeDeclaration) : declared.Rearranges declared :=
  ⟨rfl, List.Perm.refl _, .of_perm TokenDeclaration.Rearranges.refl (List.Perm.refl _)⟩

theorem symm (alike : first.Rearranges second) : second.Rearranges first :=
  ⟨alike.name.symm, alike.aliases.symm, alike.members.symm TokenDeclaration.Rearranges.symm⟩

theorem kept (alike : first.Rearranges second) : first.KeptAs (· ⊆ ·) second := by
  refine ⟨alike.name, alike.aliases.subset, ?_⟩
  intro member inside
  obtain ⟨other, beside, same⟩ := alike.members.exists_of_mem inside
  exact ⟨other, beside, same.kept⟩

theorem keys_perm (alike : first.Rearranges second) : first.keys.Perm second.keys := by
  rw [keys, keys, alike.name]
  exact alike.aliases.cons _

theorem member_keys_perm (alike : first.Rearranges second) :
    first.memberKeys.Perm second.memberKeys :=
  alike.members.flatMap_perm TokenDeclaration.Rearranges.keys_perm

end CompositeDeclaration.Rearranges

namespace Declaration.Rearranges

variable {first second : Declaration}

theorem refl (declared : Declaration) : declared.Rearranges declared := by
  cases declared with
  | atom declared => exact .atom (.refl declared)
  | composite declared => exact .composite (.refl declared)

theorem symm (alike : first.Rearranges second) : second.Rearranges first := by
  cases alike with
  | atom alike => exact .atom alike.symm
  | composite alike => exact .composite alike.symm

theorem kept (alike : first.Rearranges second) : first.KeptAs (· ⊆ ·) second := by
  cases alike with
  | atom alike => exact .atom alike.kept
  | composite alike => exact .composite alike.kept

theorem root_keys_perm (alike : first.Rearranges second) : first.rootKeys.Perm second.rootKeys := by
  cases alike with
  | atom alike => exact alike.keys_perm
  | composite alike => exact alike.keys_perm

theorem member_keys_perm (alike : first.Rearranges second) :
    first.memberKeys.Perm second.memberKeys := by
  cases alike with
  | atom => exact List.Perm.refl _
  | composite alike => exact alike.member_keys_perm

theorem size_eq (alike : first.Rearranges second) : first.size = second.size := by
  cases alike with
  | atom => rfl
  | composite alike => rw [size, size, alike.members.length_eq]

end Declaration.Rearranges

namespace Schema

theorem size_eq_foldr (schema : Schema) :
    schema.size = (schema.declarations.map Declaration.size).foldr Nat.add 0 := by
  rw [size, List.foldr_map]
  rfl

namespace Rearranges

variable {first second : Schema}

theorem symm (rearranged : first.Rearranges second) : second.Rearranges first :=
  ⟨rearranged.mode.symm, rearranged.declarations.symm Declaration.Rearranges.symm⟩

theorem kept (rearranged : first.Rearranges second) : first.KeptIn (· ⊆ ·) second := by
  refine ⟨rearranged.mode, ?_⟩
  intro declared listed
  obtain ⟨other, beside, alike⟩ := rearranged.declarations.exists_of_mem listed
  exact ⟨other, beside, alike.kept⟩

theorem size_eq (rearranged : first.Rearranges second) : first.size = second.size := by
  have sizes : (first.declarations.map Declaration.size).Perm
      (second.declarations.map Declaration.size) :=
    rearranged.declarations.map_perm Declaration.Rearranges.size_eq
  rw [size_eq_foldr, size_eq_foldr]
  apply sizes.foldr_eq'
  intro one _ other _ rest
  exact Nat.add_left_comm _ _ _

theorem names_distinct (rearranged : first.Rearranges second) (distinct : first.NamesDistinct) :
    second.NamesDistinct := by
  have roots : first.rootKeys.Perm second.rootKeys :=
    rearranged.declarations.flatMap_perm Declaration.Rearranges.root_keys_perm
  rw [NamesDistinct, ← rearranged.mode]
  refine ⟨(roots.map _).nodup_iff.mp distinct.1, ?_⟩
  intro owner listed
  obtain ⟨_, beside, alike⟩ := rearranged.symm.declarations.exists_of_mem listed
  cases alike with
  | composite alike =>
      exact (alike.member_keys_perm.map _).nodup_iff.mpr (distinct.2 _ beside)

theorem keys_perm (rearranged : first.Rearranges second) : first.keys.Perm second.keys :=
  rearranged.declarations.flatMap_perm fun alike =>
    alike.root_keys_perm.append alike.member_keys_perm

theorem legal (rearranged : first.Rearranges second) (legal : first.Legal) : second.Legal where
  fits := by
    rw [Fits, ← rearranged.size_eq]
    exact legal.fits
  named key declared := legal.named key (rearranged.keys_perm.mem_iff.mpr declared)
  distinct := rearranged.names_distinct legal.distinct
  resolved := by
    intro token declared declares included written
    obtain ⟨other, before, alike⟩ := rearranged.symm.kept.declares declares
    obtain ⟨target, resolves⟩ :=
      legal.resolved token other before included (alike.includes written)
    exact ⟨target, rearranged.kept.resolves resolves⟩
  acyclic token cycle := legal.acyclic token (rearranged.symm.kept.chain cycle)

theorem builds (rearranged : first.Rearranges second) {model : Model}
    (accepted : first.build = .ok model) : ∃ other, second.build = .ok other :=
  build_of_legal (rearranged.legal (legal_of_build accepted))

end Rearranges

structure Reorders (first second : Schema) : Prop where
  mode : first.case = second.case
  declarations : first.declarations.Perm second.declarations

namespace Reorders

variable {first second : Schema}

theorem symm (reordered : first.Reorders second) : second.Reorders first :=
  ⟨reordered.mode.symm, reordered.declarations.symm⟩

theorem rearranges (reordered : first.Reorders second) : first.Rearranges second :=
  ⟨reordered.mode, .of_perm Declaration.Rearranges.refl reordered.declarations⟩

theorem resolves (reordered : first.Reorders second) {included : String} {target : Token}
    (resolves : first.Resolves included target) : second.Resolves included target :=
  reordered.rearranges.kept.resolves resolves

theorem legal (reordered : first.Reorders second) (legal : first.Legal) : second.Legal :=
  reordered.rearranges.legal legal

end Reorders

end Schema

namespace Model

variable {model other : Model} {schema otherSchema : Schema}

theorem canonical_rearranged (filled : model.FilledFrom schema)
    (otherFilled : other.FilledFrom otherSchema) (rearranged : schema.Rearranges otherSchema)
    (token : Token) : other.canonical token = model.canonical token :=
  canonical_eq_of_kept filled otherFilled rearranged.kept rearranged.symm.kept token

theorem token_match_rearranged (resolved : model.ResolvedFrom schema)
    (otherResolved : other.ResolvedFrom otherSchema) (rearranged : schema.Rearranges otherSchema)
    (source target : Token) : other.tokenMatch source target = model.tokenMatch source target := by
  have spelling := canonical_or_self_eq_of_kept resolved.toFilledFrom otherResolved.toFilledFrom
    rearranged.kept rearranged.symm.kept
  rw [Bool.eq_iff_iff]
  constructor
  · exact token_match_kept otherResolved resolved rearranged.symm.kept (spelling source).symm
      (spelling target).symm
  · exact token_match_kept resolved otherResolved rearranged.kept (spelling source)
      (spelling target)

theorem canonical_reordered (filled : model.FilledFrom schema)
    (otherFilled : other.FilledFrom otherSchema) (reordered : schema.Reorders otherSchema)
    (token : Token) : other.canonical token = model.canonical token :=
  canonical_rearranged filled otherFilled reordered.rearranges token

theorem token_match_reordered (resolved : model.ResolvedFrom schema)
    (otherResolved : other.ResolvedFrom otherSchema) (reordered : schema.Reorders otherSchema)
    (source target : Token) : other.tokenMatch source target = model.tokenMatch source target :=
  token_match_rearranged resolved otherResolved reordered.rearranges source target

theorem agrees_rearranged (built : model.BuiltFrom schema)
    (otherBuilt : other.BuiltFrom otherSchema) (rearranged : schema.Rearranges otherSchema) :
    Checker.AgreesOn (fun _ => True) ⟨some model⟩ ⟨some other⟩ where
  mode := case_kept built.toFilledFrom otherBuilt.toFilledFrom rearranged.kept
  known _ := knows_eq_of_kept built otherBuilt rearranged.kept rearranged.symm.kept _
  spelled _ := canonical_or_self_eq_of_kept built.toFilledFrom otherBuilt.toFilledFrom
    rearranged.kept rearranged.symm.kept _
  closed := id
  matched _ _ :=
    token_match_rearranged built.toResolvedFrom otherBuilt.toResolvedFrom rearranged _ _

end Model

namespace Schema

/-- A schema and a rearranged one are accepted together. Their models spell and know the same
tokens, match them alike and decide every input alike, down to the errors. -/
theorem declaration_order_irrelevant (first second : Schema)
    (rearranged : first.Rearranges second) :
    ((∃ model, first.build = .ok model) ↔ ∃ other, second.build = .ok other) ∧
      ∀ model other, first.build = .ok model → second.build = .ok other →
        (∀ token, other.canonical token = model.canonical token) ∧
        (∀ token, other.knows token = model.knows token) ∧
        (∀ source target, other.tokenMatch source target = model.tokenMatch source target) ∧
        ∀ authorization assertion, Checker.test ⟨some other⟩ authorization assertion =
          Checker.test ⟨some model⟩ authorization assertion := by
  refine ⟨⟨?_, ?_⟩, ?_⟩
  · intro accepted
    obtain ⟨_, accepted⟩ := accepted
    exact rearranged.builds accepted
  · intro accepted
    obtain ⟨_, accepted⟩ := accepted
    exact rearranged.symm.builds accepted
  intro model other accepted otherAccepted
  have built := built_from accepted
  have otherBuilt := built_from otherAccepted
  have agree := Model.agrees_rearranged built otherBuilt rearranged
  refine ⟨Model.canonical_rearranged built.toFilledFrom otherBuilt.toFilledFrom rearranged,
    fun _ => agree.known trivial, fun _ _ => agree.matched trivial trivial, ?_⟩
  intro authorization assertion
  exact agree.test_eq (Checker.legal_of_built ⟨first, accepted⟩) (fun _ _ _ _ _ _ => trivial)
    fun _ _ _ _ _ _ => trivial

/-- Two of everything that has an order. -/
def deskSchema : Schema where
  declarations := [
    .atom ⟨"admin", ["root", "super"], ["desk:clerk", "d:viewer"]⟩,
    .composite ⟨"desk", ["d", "table"],
      [⟨"clerk", [], []⟩, ⟨"viewer", ["reader"], []⟩]⟩]

def shuffledDeskSchema : Schema where
  declarations := [
    .composite ⟨"desk", ["table", "d"],
      [⟨"viewer", ["reader"], []⟩, ⟨"clerk", [], []⟩]⟩,
    .atom ⟨"admin", ["super", "root"], ["d:viewer", "desk:clerk"]⟩]

def deskModel : Model where
  case := .insensitive
  definitions := #[
    ⟨0, "admin", .atom "admin", .atom, ["root", "super"], [2, 3], [], none⟩,
    ⟨1, "desk", .composite "desk" "*", .composite, ["d", "table"], [], [2, 3], none⟩,
    ⟨2, "clerk", .composite "desk" "clerk", .member, [], [], [], some 1⟩,
    ⟨3, "viewer", .composite "desk" "viewer", .member, ["reader"], [], [], some 1⟩]
  roots := [0, 1]
  index := [((none, "admin"), 0), ((none, "root"), 0), ((none, "super"), 0), ((none, "desk"), 1),
    ((none, "d"), 1), ((none, "table"), 1), ((some 1, "clerk"), 2), ((some 1, "viewer"), 3),
    ((some 1, "reader"), 3)]

theorem desk_schema_builds : deskSchema.build = .ok deskModel := by
  have acyclic : deskModel.checkAcyclic = .ok () :=
    Model.check_acyclic_of_depth ([1, 0, 0, 0].getD · 0) (by decide)
  exact build_of_layout (by decide) (by decide +kernel) (by decide +kernel)
    (by decide +kernel) (by decide +kernel) acyclic

theorem desk_rearranged : deskSchema.Rearranges shuffledDeskSchema := by
  have admin :
      TokenDeclaration.Rearranges ⟨"admin", ["root", "super"], ["desk:clerk", "d:viewer"]⟩
      ⟨"admin", ["super", "root"], ["d:viewer", "desk:clerk"]⟩ :=
    ⟨rfl, by decide, by decide⟩
  have desk : CompositeDeclaration.Rearranges
      ⟨"desk", ["d", "table"], [⟨"clerk", [], []⟩, ⟨"viewer", ["reader"], []⟩]⟩
      ⟨"desk", ["table", "d"], [⟨"viewer", ["reader"], []⟩, ⟨"clerk", [], []⟩]⟩ :=
    ⟨rfl, by decide, .of_perm TokenDeclaration.Rearranges.refl (List.Perm.swap _ _ _)⟩
  exact ⟨rfl, _, .cons (.atom admin) (.cons (.composite desk) .nil), List.Perm.swap _ _ _⟩

/-- The shuffled desk is accepted because the other one is, and an alias of its atom still meets an
alias of a member that the atom includes. -/
theorem shuffled_desk_alike : deskSchema.Rearranges shuffledDeskSchema ∧
    deskSchema.build = .ok deskModel ∧
      ∃ other, shuffledDeskSchema.build = .ok other ∧ other ≠ deskModel ∧
        other.canonical (.atom "SUPER") = some (.atom "admin") ∧
        other.tokenMatch (.atom "Root") (.composite "d" "Reader") = true ∧
        ∀ authorization assertion, Checker.test ⟨some other⟩ authorization assertion =
          Checker.test ⟨some deskModel⟩ authorization assertion := by
  obtain ⟨together, alike⟩ := declaration_order_irrelevant _ _ desk_rearranged
  obtain ⟨other, accepted⟩ := together.mp ⟨deskModel, desk_schema_builds⟩
  obtain ⟨spelled, _, matched, decided⟩ := alike deskModel other desk_schema_builds accepted
  have included : deskModel.Includes 0 3 := ⟨by decide, by decide⟩
  have met : deskModel.tokenMatch (.atom "Root") (.composite "d" "Reader") = true := by
    apply (Model.token_match_iff _ _).mpr
    right
    exact ⟨0, 3, _, by decide +kernel, .single included, rfl, by decide +kernel⟩
  have moved : other ≠ deskModel := by
    intro same
    have roots := (built_from accepted).roots_eq
    rw [same] at roots
    exact absurd roots (by decide)
  refine ⟨desk_rearranged, desk_schema_builds, other, accepted, moved, ?_, ?_, decided⟩
  · rw [spelled]
    decide +kernel
  · rw [matched]
    exact met

end Schema

end ClaimPolicy

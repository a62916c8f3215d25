import ClaimPolicy.Proofs.Meaning

/-!
Schemas that keep what another schema declares. Each declaration is still there under its name, with
its aliases and members and perhaps more, and its written includes are related as the extension
allows. What a token means is then kept, so that what is left to compare between two models is which
chains of includes there are.
-/
namespace ClaimPolicy

/-- How the written includes of an atom or member may differ from those that it had before. -/
abbrev IncludesRelation := List String → List String → Prop

structure TokenDeclaration.KeptAs (related : IncludesRelation) (first second : TokenDeclaration) :
    Prop where
  name : first.name = second.name
  aliases : first.aliases ⊆ second.aliases
  includes : related first.includes second.includes

structure CompositeDeclaration.KeptAs (related : IncludesRelation)
    (first second : CompositeDeclaration) : Prop where
  name : first.name = second.name
  aliases : first.aliases ⊆ second.aliases
  members : ∀ member ∈ first.members, ∃ other ∈ second.members, member.KeptAs related other

inductive Declaration.KeptAs (related : IncludesRelation) : Declaration → Declaration → Prop
  | atom {one other : TokenDeclaration} (kept : one.KeptAs related other) :
      KeptAs related (.atom one) (.atom other)
  | composite {one other : CompositeDeclaration} (kept : one.KeptAs related other) :
      KeptAs related (.composite one) (.composite other)

structure Schema.KeptIn (related : IncludesRelation) (first second : Schema) : Prop where
  mode : first.case = second.case
  declarations : ∀ declared ∈ first.declarations, ∃ other ∈ second.declarations,
    declared.KeptAs related other

section Decidable

variable {related : IncludesRelation} [DecidableRel related]

instance (first second : TokenDeclaration) : Decidable (first.KeptAs related second) :=
  decidable_of_iff (first.name = second.name ∧ first.aliases ⊆ second.aliases ∧
      related first.includes second.includes)
    ⟨fun parts => ⟨parts.1, parts.2.1, parts.2.2⟩,
      fun kept => ⟨kept.name, kept.aliases, kept.includes⟩⟩

instance (first second : CompositeDeclaration) : Decidable (first.KeptAs related second) :=
  decidable_of_iff (first.name = second.name ∧ first.aliases ⊆ second.aliases ∧
      ∀ member ∈ first.members, ∃ other ∈ second.members, member.KeptAs related other)
    ⟨fun parts => ⟨parts.1, parts.2.1, parts.2.2⟩,
      fun kept => ⟨kept.name, kept.aliases, kept.members⟩⟩

instance (first second : Declaration) : Decidable (first.KeptAs related second) :=
  match first, second with
  | .atom one, .atom other =>
      decidable_of_iff (one.KeptAs related other) ⟨.atom, fun kept => by cases kept; assumption⟩
  | .composite one, .composite other =>
      decidable_of_iff (one.KeptAs related other) ⟨.composite, fun kept => by
        cases kept; assumption⟩
  | .atom _, .composite _ => isFalse nofun
  | .composite _, .atom _ => isFalse nofun

instance (first second : Schema) : Decidable (first.KeptIn related second) :=
  decidable_of_iff (first.case = second.case ∧ ∀ declared ∈ first.declarations,
      ∃ other ∈ second.declarations, declared.KeptAs related other)
    ⟨fun parts => ⟨parts.1, parts.2⟩, fun kept => ⟨kept.mode, kept.declarations⟩⟩

end Decidable

theorem CaseMode.Lists.mono {mode : CaseMode} {keys others : List String} {name : String}
    (inside : keys ⊆ others) (listed : mode.Lists keys name) : mode.Lists others name := by
  obtain ⟨key, member, folded⟩ := listed
  exact ⟨key, inside member, folded⟩

section Declarations

variable {related wider : IncludesRelation}

theorem TokenDeclaration.KeptAs.keys {first second : TokenDeclaration}
    (kept : first.KeptAs related second) : first.keys ⊆ second.keys := by
  rw [TokenDeclaration.keys, TokenDeclaration.keys, kept.name]
  exact List.cons_subset_cons _ kept.aliases

theorem CompositeDeclaration.KeptAs.keys {first second : CompositeDeclaration}
    (kept : first.KeptAs related second) : first.keys ⊆ second.keys := by
  rw [CompositeDeclaration.keys, CompositeDeclaration.keys, kept.name]
  exact List.cons_subset_cons _ kept.aliases

theorem TokenDeclaration.KeptAs.mono (wide : ∀ written others, related written others →
    wider written others) {first second : TokenDeclaration} (kept : first.KeptAs related second) :
    first.KeptAs wider second :=
  ⟨kept.name, kept.aliases, wide _ _ kept.includes⟩

theorem CompositeDeclaration.KeptAs.mono (wide : ∀ written others, related written others →
    wider written others) {first second : CompositeDeclaration}
    (kept : first.KeptAs related second) : first.KeptAs wider second := by
  refine ⟨kept.name, kept.aliases, ?_⟩
  intro member inside
  obtain ⟨other, beside, kept⟩ := kept.members member inside
  exact ⟨other, beside, kept.mono wide⟩

theorem Declaration.KeptAs.mono (wide : ∀ written others, related written others →
    wider written others) {first second : Declaration} (kept : first.KeptAs related second) :
    first.KeptAs wider second := by
  cases kept with
  | atom kept => exact .atom (kept.mono wide)
  | composite kept => exact .composite (kept.mono wide)

end Declarations

namespace Schema.KeptIn

variable {related wider : IncludesRelation} {first second : Schema}

theorem mono (wide : ∀ written others, related written others → wider written others)
    (kept : first.KeptIn related second) : first.KeptIn wider second := by
  refine ⟨kept.mode, ?_⟩
  intro declared listed
  obtain ⟨other, beside, kept⟩ := kept.declarations declared listed
  exact ⟨other, beside, kept.mono wide⟩

theorem atom (kept : first.KeptIn related second) {declared : TokenDeclaration}
    (listed : .atom declared ∈ first.declarations) :
    ∃ other, .atom other ∈ second.declarations ∧ declared.KeptAs related other := by
  obtain ⟨_, beside, kept⟩ := kept.declarations _ listed
  cases kept with
  | atom kept => exact ⟨_, beside, kept⟩

theorem composite (kept : first.KeptIn related second) {declared : CompositeDeclaration}
    (listed : .composite declared ∈ first.declarations) :
    ∃ other, .composite other ∈ second.declarations ∧ declared.KeptAs related other := by
  obtain ⟨_, beside, kept⟩ := kept.declarations _ listed
  cases kept with
  | composite kept => exact ⟨_, beside, kept⟩

theorem names (kept : first.KeptIn related second) {written target : Token}
    (names : first.Names written target) : second.Names written target := by
  cases names with
  | atom listed named =>
      obtain ⟨other, beside, same⟩ := kept.atom listed
      rw [same.name]
      exact .atom beside ((kept.mode ▸ named).mono same.keys)
  | member listed inside parentNamed childNamed =>
      obtain ⟨other, beside, same⟩ := kept.composite listed
      obtain ⟨member, among, alike⟩ := same.members _ inside
      rw [same.name, alike.name]
      exact .member beside among ((kept.mode ▸ parentNamed).mono same.keys)
        ((kept.mode ▸ childNamed).mono alike.keys)

theorem spells (kept : first.KeptIn related second) {written target : Token}
    (spells : first.Spells written target) : second.Spells written target := by
  cases spells with
  | concrete names => exact .concrete (kept.names names)
  | family listed named =>
      obtain ⟨other, beside, same⟩ := kept.composite listed
      rw [same.name]
      exact .family beside ((kept.mode ▸ named).mono same.keys)

theorem declares (kept : first.KeptIn related second) {token : Token} {declared : TokenDeclaration}
    (declares : first.Declares token declared) :
    ∃ other, second.Declares token other ∧ declared.KeptAs related other := by
  cases declares with
  | atom listed =>
      obtain ⟨other, beside, same⟩ := kept.atom listed
      rw [same.name]
      exact ⟨other, .atom beside, same⟩
  | member listed inside =>
      obtain ⟨owner, beside, same⟩ := kept.composite listed
      obtain ⟨other, among, alike⟩ := same.members _ inside
      rw [same.name, alike.name]
      exact ⟨other, .member beside among, alike⟩

theorem resolves (kept : first.KeptIn related second) {included : String} {target : Token}
    (resolves : first.Resolves included target) : second.Resolves included target := by
  obtain ⟨written, read, names⟩ := resolves
  exact ⟨written, read, kept.names names⟩

theorem includes (kept : first.KeptIn (· ⊆ ·) second) {source target : Token}
    (step : first.Includes source target) : second.Includes source target := by
  obtain ⟨declared, declares, included, written, resolves⟩ := step
  obtain ⟨other, beside, same⟩ := kept.declares declares
  exact ⟨other, beside, included, same.includes written, kept.resolves resolves⟩

theorem chain (kept : first.KeptIn (· ⊆ ·) second) {source target : Token}
    (chain : Relation.TransGen first.Includes source target) :
    Relation.TransGen second.Includes source target :=
  Relation.TransGen.mono (fun _ _ => kept.includes) _ _ chain

end Schema.KeptIn

namespace Model

variable {model other : Model} {schema otherSchema : Schema} {related : IncludesRelation}

theorem case_kept (filled : model.FilledFrom schema) (otherFilled : other.FilledFrom otherSchema)
    (kept : schema.KeptIn related otherSchema) : other.case = model.case := by
  rw [otherFilled.mode, filled.mode, kept.mode]

theorem canonical_kept (filled : model.FilledFrom schema)
    (otherFilled : other.FilledFrom otherSchema) (kept : schema.KeptIn related otherSchema)
    {token target : Token} (spelled : model.canonical token = some target) :
    other.canonical token = some target :=
  (otherFilled.canonical_iff _ _).mpr (kept.spells ((filled.canonical_iff _ _).mp spelled))

theorem knows_kept (built : model.BuiltFrom schema) (otherBuilt : other.BuiltFrom otherSchema)
    (kept : schema.KeptIn related otherSchema) {token : Token}
    (known : model.knows token = true) : other.knows token = true := by
  rw [otherBuilt.knows_iff]
  rcases (built.knows_iff token).mp known with ⟨target, spells⟩ | ⟨wild, declared, listed⟩
  · exact Or.inl ⟨target, kept.spells spells⟩
  · obtain ⟨opposite, beside, _⟩ := kept.atom listed
    exact Or.inr ⟨wild, opposite, beside⟩

theorem canonical_or_self_kept (built : model.BuiltFrom schema)
    (otherBuilt : other.BuiltFrom otherSchema) (kept : schema.KeptIn related otherSchema)
    {token : Token} (known : model.knows token = true) :
    other.canonicalOrSelf token = model.canonicalOrSelf token := by
  rcases (knows_iff_canonical built.indexed token).mp known with
    ⟨target, spelled⟩ | ⟨rfl, _⟩
  · have again := canonical_kept built.toFilledFrom otherBuilt.toFilledFrom kept spelled
    rw [canonicalOrSelf, canonicalOrSelf, again, spelled]
  · rw [canonical_wildcard_atom built.indexed, canonical_wildcard_atom otherBuilt.indexed]

/-- With the same names and no fewer includes, tokens that met go on to meet. -/
theorem token_match_kept (resolved : model.ResolvedFrom schema)
    (otherResolved : other.ResolvedFrom otherSchema) (kept : schema.KeptIn (· ⊆ ·) otherSchema)
    {source target : Token}
    (sourceSame : other.canonicalOrSelf source = model.canonicalOrSelf source)
    (targetSame : other.canonicalOrSelf target = model.canonicalOrSelf target)
    (met : model.tokenMatch source target = true) : other.tokenMatch source target = true := by
  have mode := case_kept resolved.toFilledFrom otherResolved.toFilledFrom kept
  rw [resolved.match_iff] at met
  rw [otherResolved.match_iff, mode, sourceSame, targetSame]
  rcases met with direct | ⟨start, reached, names, chain, met⟩
  · exact Or.inl direct
  · exact Or.inr ⟨start, reached, kept.names names, kept.chain chain, met⟩

theorem canonical_eq_of_kept (filled : model.FilledFrom schema)
    (otherFilled : other.FilledFrom otherSchema) {back : IncludesRelation}
    (kept : schema.KeptIn related otherSchema) (returned : otherSchema.KeptIn back schema)
    (token : Token) : other.canonical token = model.canonical token := by
  apply Option.ext
  intro target
  exact ⟨canonical_kept otherFilled filled returned, canonical_kept filled otherFilled kept⟩

theorem canonical_or_self_eq_of_kept (filled : model.FilledFrom schema)
    (otherFilled : other.FilledFrom otherSchema) {back : IncludesRelation}
    (kept : schema.KeptIn related otherSchema) (returned : otherSchema.KeptIn back schema)
    (token : Token) : other.canonicalOrSelf token = model.canonicalOrSelf token := by
  rw [canonicalOrSelf, canonicalOrSelf, canonical_eq_of_kept filled otherFilled kept returned]

theorem knows_eq_of_kept (built : model.BuiltFrom schema)
    (otherBuilt : other.BuiltFrom otherSchema) {back : IncludesRelation}
    (kept : schema.KeptIn related otherSchema) (returned : otherSchema.KeptIn back schema)
    (token : Token) : other.knows token = model.knows token := by
  rw [Bool.eq_iff_iff]
  exact ⟨knows_kept otherBuilt built returned, knows_kept built otherBuilt kept⟩

end Model

end ClaimPolicy

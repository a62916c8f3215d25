import ClaimPolicy.Proofs.Families
import ClaimPolicy.Proofs.MatchWalk

/-!
The model as it grows, one definition at a time. A definition is given the next place, its keys are
entered into the index one after the other, and its place is added to the children of its composite
or to the roots. What it includes is kept aside until all definitions are there.

Each insertion leaves the model of the drafts so far, and is refused when the registration of the
next draft is. It never reads outside the arena, since a composite is inserted before its members.
-/
namespace ClaimPolicy

/-- Where a new definition goes: to the root, or below the composite at a place. -/
inductive Position where
  | atom
  | composite
  | member (parent : Nat)

namespace Position

def kind : Position → DefinitionKind
  | atom => .atom
  | composite => .composite
  | member _ => .member

def level : Position → Option Nat
  | member parent => some parent
  | _ => none

end Position

/-- What ends a build early: a check that fails, or a read outside the arena. -/
inductive Stop where
  | refused (fault : Error)
  | astray (place : Nat)
  deriving DecidableEq, Repr

def Definition.adopt (owner : Definition) (id : Nat) : Definition :=
  { owner with children := owner.children ++ [id] }

namespace Model

def newToken (model : Model) (name : String) : Position → Except Stop Token
  | .atom => .ok (.atom name)
  | .composite => .ok (.composite name Name.wildcard)
  | .member parent => do
      let owner ← (model.fetch parent).mapError .astray
      return .composite owner.name name

def clash (model : Model) (key : String) : Position → Stop
  | .member parent =>
      match model.fetch parent with
      | .ok owner => .refused (.duplicateName (owner.name ++ ":" ++ key))
      | .error place => .astray place
  | _ => .refused (.duplicateName key)

def enterKeys (model : Model) (position : Position) (id : Nat) : List String → Except Stop Model
  | [] => .ok model
  | key :: keys =>
      let slot := (position.level, model.case.fold key)
      if (model.index.map Prod.fst).contains slot then .error (model.clash key position)
      else enterKeys { model with index := (slot, id) :: model.index } position id keys

def attach (model : Model) (definition : Definition) : Model :=
  match definition.parent with
  | some parent =>
      { model with
        definitions := (model.definitions.push definition).modify parent (·.adopt definition.id) }
  | none =>
      { model with
        definitions := model.definitions.push definition
        roots := model.roots ++ [definition.id] }

def insert (model : Model) (name : String) (position : Position) (aliases : List String) :
    Except Stop (Nat × Model) := do
  let id := model.size
  let token ← model.newToken name position
  let entered ← model.enterKeys position id (name :: aliases)
  return (id, entered.attach
    { id := id, name := name, token := token, kind := position.kind
      aliases := Name.sorted aliases, includes := [], children := [], parent := position.level })

def insertNamed (model : Model) (name : String) (position : Position) (aliases : List String) :
    Except Stop (Nat × Model) := do
  (Draft.checkNames (name :: aliases)).mapError .refused
  model.insert name position aliases

end Model

/-- Written includes that are kept aside, with the place and the full name of what they belong
to. -/
structure Pending where
  id : Nat
  owner : String
  written : List String

structure Growing where
  model : Model
  pending : List Pending

namespace Growing

def insertToken (growing : Growing) (declared : TokenDeclaration) (position : Position)
    (owner : String) : Except Stop Growing := do
  let (id, model) ← growing.model.insertNamed declared.name position declared.aliases
  return ⟨model, growing.pending ++ [⟨id, owner, declared.includes⟩]⟩

def declare (growing : Growing) : Declaration → Except Stop Growing
  | .atom declared => growing.insertToken declared .atom declared.name
  | .composite declared => do
      let (parent, model) ← growing.model.insertNamed declared.name .composite declared.aliases
      declared.members.foldlM (fun growing member => growing.insertToken member (.member parent)
        (declared.name ++ ":" ++ member.name)) { growing with model := model }

end Growing

namespace Model

def collect (model : Model) (owner : String) (targets : List Nat) :
    List String → Except Stop (List Nat)
  | [] => .ok targets
  | included :: rest =>
      match (Token.parse included).toOption.bind (model.findId · .strict) with
      | none => .error (.refused (.unknownInclude owner included))
      | some target =>
          collect model owner
            (if targets.contains target then targets else targets ++ [target]) rest

def setIncludes (model : Model) (id : Nat) (includes : List Nat) : Except Stop Model := do
  let definition ← (model.fetch id).mapError .astray
  let filled := { definition with includes := includes }
  return { model with definitions := model.definitions.setIfInBounds id filled }

def resolvePending (model : Model) (pending : Pending) : Except Stop Model := do
  let targets ← model.collect pending.owner [] pending.written
  model.setIncludes pending.id targets

end Model

/-- The build by insertions, from a model with nothing in it. -/
def Schema.grow (schema : Schema) : Except Stop Model := do
  if maxModelTokens < schema.size then throw (.refused (.tooManyTokens schema.size))
  let growing ← schema.declarations.foldlM Growing.declare
    ⟨⟨schema.case, #[], [], []⟩, []⟩
  let model ← growing.pending.foldlM Model.resolvePending growing.model
  model.checkAcyclic.mapError .refused
  return model

def Draft.entries (mode : CaseMode) (draft : Draft) : List (Slot × Nat) :=
  draft.keys.map fun key => ((draft.level, mode.fold key), draft.id)

def Draft.childrenIn (drafts : List Draft) (id : Nat) : List Nat :=
  (drafts.filter fun draft => draft.level == some id).map Draft.id

/-- The definition of a draft before anything is inserted after it. -/
def Draft.inserted (draft : Draft) : Definition :=
  { draft.definition [] with children := [] }

/-- The definition of a draft, with those of its members that are among some drafts. -/
def Draft.grown (drafts : List Draft) (draft : Draft) : Definition :=
  { draft.definition [] with children := childrenIn drafts draft.id }

def Draft.keptAside (drafts : List Draft) : List Pending :=
  (drafts.filter fun draft => draft.kind != .composite).map fun draft =>
    ⟨draft.id, draft.token.text, draft.includes⟩

namespace Growing

def after (mode : CaseMode) (drafts : List Draft) : Growing where
  model :=
    { case := mode
      definitions := (drafts.map (Draft.grown drafts)).toArray
      roots := (drafts.filter Draft.isRoot).map Draft.id
      index := (drafts.flatMap (Draft.entries mode)).reverse }
  pending := Draft.keptAside drafts

def taken (mode : CaseMode) (drafts : List Draft) : List Slot :=
  (drafts.flatMap (Draft.slots mode)).reverse

/-- The insertion of more drafts, as far as their names can be registered. -/
def advance (mode : CaseMode) (before drafts : List Draft) : Except Stop Growing :=
  match Model.register mode (taken mode before) drafts with
  | .ok _ => .ok (after mode (before ++ drafts))
  | .error fault => .error (.refused fault)

end Growing

/-- Drafts that stand at their places, members after their composites. -/
structure Draft.Ordered (drafts : List Draft) : Prop where
  placed : ∀ {place : Nat} {draft : Draft}, drafts[place]? = some draft → draft.id = place
  below : ∀ {draft : Draft}, draft ∈ drafts → ∀ {parent : Nat},
    draft.level = some parent → parent < draft.id

/-- A draft that comes next after some others, and its position. -/
inductive Draft.Next (before : List Draft) (draft : Draft) : Position → Prop
  | atom (kind : draft.kind = .atom) (root : draft.parent = none) : Next before draft .atom
  | composite (kind : draft.kind = .composite) (root : draft.parent = none) :
      Next before draft .composite
  | member {place : Nat} {owner : Draft} (kind : draft.kind = .member)
      (found : before[place]? = some owner) (below : draft.parent = some (place, owner.name)) :
      Next before draft (.member place)

namespace Draft

variable {before : List Draft} {draft : Draft}

theorem Ordered.front {rest : List Draft} (ordered : Ordered (before ++ rest)) :
    Ordered before where
  placed found := ordered.placed (by
    rw [List.getElem?_append_left (List.getElem?_eq_some_iff.mp found).1]
    exact found)
  below member := ordered.below (List.mem_append_left _ member)

theorem Ordered.next_id (ordered : Ordered (before ++ [draft])) : draft.id = before.length :=
  ordered.placed (by simp)

theorem Ordered.inside (ordered : Ordered (before ++ [draft])) {parent : Nat}
    (below : draft.level = some parent) : parent < before.length :=
  ordered.next_id ▸ ordered.below (List.mem_append_right _ List.mem_cons_self) below

/-- Members come after their composite, so a new draft has no children. -/
theorem Ordered.childless (ordered : Ordered (before ++ [draft])) :
    childrenIn before draft.id = [] := by
  rw [childrenIn, List.map_eq_nil_iff, List.filter_eq_nil_iff]
  intro other among child
  obtain ⟨place, found⟩ := List.getElem?_of_mem among
  have above := ordered.front.below among (beq_iff_eq.mp child)
  rw [ordered.front.placed found, ordered.next_id] at above
  exact Nat.lt_asymm above (List.getElem?_eq_some_iff.mp found).1

theorem Next.kind {position : Position} (next : draft.Next before position) :
    draft.kind = position.kind := by
  cases next with
  | atom kind => exact kind
  | composite kind => exact kind
  | member kind => exact kind

theorem Next.level {position : Position} (next : draft.Next before position) :
    draft.level = position.level := by
  cases next with
  | atom _ root => rw [Draft.level, root]; rfl
  | composite _ root => rw [Draft.level, root]; rfl
  | member _ _ below => rw [Draft.level, below]; rfl

theorem children_snoc (before : List Draft) (draft : Draft) (id : Nat) :
    childrenIn (before ++ [draft]) id =
      childrenIn before id ++ if draft.level = some id then [draft.id] else [] := by
  rw [childrenIn, List.filter_append, List.map_append]
  by_cases below : draft.level = some id <;> simp [childrenIn, below]

theorem grown_snoc (ordered : Ordered (before ++ [draft])) {place : Nat} {earlier : Draft}
    (found : before[place]? = some earlier) : earlier.grown (before ++ [draft]) =
      if draft.level = some place then (earlier.grown before).adopt draft.id
      else earlier.grown before := by
  have placed := ordered.front.placed found
  rw [Draft.grown, children_snoc, placed]
  split
  · rw [Definition.adopt, Draft.grown, placed]
  · rw [List.append_nil, Draft.grown, placed]

theorem grown_self (ordered : Ordered (before ++ [draft])) :
    draft.grown (before ++ [draft]) = draft.inserted := by
  have elsewhere : draft.level ≠ some draft.id := by
    intro below
    exact Nat.lt_irrefl _ (ordered.below (List.mem_append_right _ List.mem_cons_self) below)
  rw [Draft.grown, children_snoc, ordered.childless, if_neg elsewhere]
  rfl

theorem all_grown_snoc (ordered : Ordered (before ++ [draft])) {definitions : List Definition}
    (grown : definitions = before.map (Draft.grown before) ++ [draft.inserted]) :
    (before ++ [draft]).map (Draft.grown (before ++ [draft])) =
      match draft.level with
      | none => definitions
      | some parent => definitions.modify parent (·.adopt draft.id) := by
  have adopted (place : Nat) : ((before ++ [draft]).map (Draft.grown (before ++ [draft])))[place]? =
      if draft.level = some place then (definitions[place]?).map (·.adopt draft.id)
      else definitions[place]? := by
    rw [grown, List.getElem?_map]
    by_cases early : place < before.length
    · rw [List.getElem?_append_left early, List.getElem?_append_left (by simpa using early),
        List.getElem?_map]
      have found := List.getElem?_eq_getElem early
      rw [found, Option.map_some, Option.map_some, grown_snoc ordered found]
      split <;> rfl
    · have notBelow : draft.level ≠ some place := fun below => early (ordered.inside below)
      rw [if_neg notBelow, List.getElem?_append_right (Nat.le_of_not_lt early),
        List.getElem?_append_right (by simpa using early), List.length_map]
      cases place - before.length with
      | zero => simp [grown_self ordered]
      | succ => simp
  apply List.ext_getElem?
  intro place
  rw [adopted]
  cases draft.level with
  | none => simp
  | some parent =>
      simp only [Option.some.injEq, List.getElem?_modify]
      split <;> simp [*]

end Draft

namespace Model

variable {mode : CaseMode} {before : List Draft} {draft : Draft} {position : Position}

theorem after_get (mode : CaseMode) (drafts : List Draft) (place : Nat) :
    (Growing.after mode drafts).model.get? place =
      drafts[place]?.map (Draft.grown drafts) := by
  simp [Growing.after, get?]

theorem after_fetch {drafts : List Draft} {place : Nat} (found : drafts[place]? = some draft) :
    (Growing.after mode drafts).model.fetch place = .ok (draft.grown drafts) := by
  apply fetch_eq_ok
  rw [after_get, found]
  rfl

theorem new_token_after (next : draft.Next before position) :
    (Growing.after mode before).model.newToken draft.name position = .ok draft.token := by
  cases next with
  | atom kind => rw [newToken, Draft.token, kind]
  | composite kind => rw [newToken, Draft.token, kind]
  | member kind found below =>
      rw [newToken, after_fetch found, Draft.token, kind, below]
      rfl

theorem clash_after (mode : CaseMode) (next : draft.Next before position) (key : String) :
    (Growing.after mode before).model.clash key position =
      .refused (.duplicateName (draft.keyText key)) := by
  cases next with
  | atom _ root => rw [clash, Draft.keyText, root]; exact nofun
  | composite _ root => rw [clash, Draft.keyText, root]; exact nofun
  | member _ found below =>
      rw [clash, after_fetch found, Draft.keyText, below]
      rfl

theorem enter_keys_eq {model : Model} (level : draft.level = position.level)
    (clashes : ∀ key, model.clash key position = .refused (.duplicateName (draft.keyText key)))
    (keys : List String) : model.enterKeys position draft.id keys =
      ((draft.takeSlots model.case (model.index.map Prod.fst) keys).mapError .refused).map fun _ =>
        { model with index := (keys.map fun key =>
            ((draft.level, model.case.fold key), draft.id)).reverse ++ model.index } := by
  induction keys generalizing model with
  | nil => rfl
  | cons key keys ih =>
      rw [enterKeys, Draft.takeSlots, ← level]
      by_cases clash : (model.index.map Prod.fst).contains (draft.level, model.case.fold key) = true
      · rw [if_pos clash, if_pos clash, clashes]
        rfl
      · have entered := @ih { model with
          index := ((draft.level, model.case.fold key), draft.id) :: model.index } clashes
        rw [if_neg clash, if_neg clash, entered, List.map_cons, List.map_cons, List.reverse_cons,
          List.append_assoc]
        rfl

theorem attach_after (mode : CaseMode) (ordered : Draft.Ordered (before ++ [draft])) :
    attach { (Growing.after mode before).model with
        index := (draft.entries mode).reverse ++ (Growing.after mode before).model.index }
      draft.inserted = (Growing.after mode (before ++ [draft])).model := by
  have definitions := Draft.all_grown_snoc ordered rfl
  have index : (draft.entries mode).reverse ++ (before.flatMap (Draft.entries mode)).reverse =
      ((before ++ [draft]).flatMap (Draft.entries mode)).reverse := by
    simp
  have parent : draft.inserted.parent = draft.level := rfl
  rw [attach, parent]
  simp only [Growing.after, List.push_toArray, List.modify_toArray, index, definitions]
  cases level : draft.level with
  | none =>
      have root : draft.isRoot = true := by simpa [Draft.isRoot, Draft.level] using level
      simp [List.filter_append, root, Draft.inserted, Draft.definition]
  | some place =>
      have below : draft.isRoot = false := by
        rw [Draft.level, Option.map_eq_some_iff] at level
        obtain ⟨_, above, _⟩ := level
        simp [Draft.isRoot, above]
      simp [List.filter_append, below, Draft.inserted, Draft.definition]

/-- The insertion of the next draft goes on, or stops, as the registration of its names does. -/
theorem insert_after (mode : CaseMode) (ordered : Draft.Ordered (before ++ [draft]))
    (next : draft.Next before position) :
    (Growing.after mode before).model.insertNamed draft.name position draft.aliases =
      (Growing.advance mode before [draft]).map fun growing => (draft.id, growing.model) := by
  have size : (Growing.after mode before).model.size = draft.id := by
    simp [ordered.next_id, Growing.after, Model.size]
  have taken :
      (Growing.after mode before).model.index.map Prod.fst = Growing.taken mode before := by
    simp only [Growing.after, Growing.taken, List.map_reverse, List.map_flatMap, Draft.entries,
      List.map_map]
    rfl
  have definition : draft.inserted = ⟨draft.id, draft.name, draft.token, position.kind,
      Name.sorted draft.aliases, [], [], position.level⟩ := by
    rw [← next.kind, ← next.level]
    rfl
  have entered := enter_keys_eq next.level (clash_after mode next) draft.keys
  have attached := attach_after mode ordered
  rw [taken] at entered
  rw [definition] at attached
  unfold insertNamed Growing.advance register insert
  rw [size, new_token_after next]
  change ((Draft.checkNames draft.keys).mapError _ >>= fun _ =>
    (Growing.after mode before).model.enterKeys position draft.id draft.keys >>= _) = _
  rw [entered]
  cases Draft.checkNames draft.keys with
  | error fault => rfl
  | ok =>
      have sameCase : (Growing.after mode before).model.case = mode := rfl
      rw [sameCase]
      cases took : draft.takeSlots mode (Growing.taken mode before) draft.keys with
      | error fault => rfl
      | ok slots =>
          exact congrArg (fun model => Except.ok (draft.id, model)) attached

end Model

namespace Growing

variable {mode : CaseMode} {before : List Draft}

theorem register_taken {taken left : List Slot} {drafts : List Draft}
    (registered : Model.register mode taken drafts = .ok left) :
    left = (drafts.flatMap (Draft.slots mode)).reverse ++ taken := by
  induction drafts generalizing taken with
  | nil =>
      cases registered
      rfl
  | cons draft drafts ih =>
      rw [Model.register] at registered
      obtain ⟨_, _, further⟩ := (bind_eq_ok _ _ _).mp registered
      obtain ⟨middle, took, later⟩ := (bind_eq_ok _ _ _).mp further
      obtain ⟨_, _, rfl⟩ := (Draft.take_slots_eq_ok _ _ _ _ _).mp took
      rw [ih later, List.flatMap_cons, List.reverse_append, List.append_assoc]
      rfl

theorem register_append (mode : CaseMode) (taken : List Slot) (first second : List Draft) :
    Model.register mode taken (first ++ second) =
      Model.register mode taken first >>= (Model.register mode · second) := by
  induction first generalizing taken with
  | nil => rfl
  | cons draft drafts ih =>
      rw [List.cons_append, Model.register, Model.register, bind_assoc]
      congr 1
      funext _
      rw [bind_assoc]
      congr 1
      funext middle
      exact ih middle

theorem advance_append (mode : CaseMode) (before first second : List Draft) :
    advance mode before (first ++ second) =
      advance mode before first >>= fun _ => advance mode (before ++ first) second := by
  rw [advance, advance, register_append]
  cases registered : Model.register mode (taken mode before) first with
  | error fault => rfl
  | ok left =>
      have same : left = taken mode (before ++ first) := by
        rw [register_taken registered, taken, taken, List.flatMap_append, List.reverse_append]
      subst same
      simp only [bind, Except.bind, advance, List.append_assoc]

theorem advance_bind {Value : Type} (before drafts : List Draft)
    (next : Growing → Except Stop Value) :
    advance mode before drafts >>= next =
      advance mode before drafts >>= fun _ => next (after mode (before ++ drafts)) := by
  rw [advance]
  split <;> rfl

theorem after_pending (mode : CaseMode) (before : List Draft) (draft : Draft)
    (concrete : draft.kind ≠ .composite) : (after mode (before ++ [draft])).pending =
      (after mode before).pending ++ [⟨draft.id, draft.token.text, draft.includes⟩] := by
  simp [after, Draft.keptAside, List.filter_append, concrete]

theorem insert_token_after (mode : CaseMode) (position : Position) {declared : TokenDeclaration}
    {parent : Option (Nat × String)}
    (ordered : Draft.Ordered (before ++ [declared.draft position.kind parent before.length]))
    (next : (declared.draft position.kind parent before.length).Next before position)
    (concrete : position.kind ≠ .composite) :
    (after mode before).insertToken declared position
        (declared.draft position.kind parent before.length).token.text =
      advance mode before [declared.draft position.kind parent before.length] := by
  have inserted := Model.insert_after mode ordered next
  have pending := after_pending mode before (declared.draft position.kind parent before.length)
    concrete
  rw [insertToken]
  change (after mode before).model.insertNamed declared.name position declared.aliases =
    _ at inserted
  rw [inserted, advance]
  split
  · exact congrArg (fun pending => Except.ok (Growing.mk _ pending)) pending.symm
  · rfl

theorem insert_members_after (mode : CaseMode) {members : List TokenDeclaration} {place : Nat}
    {owner : Draft} (found : before[place]? = some owner) (ordered : Draft.Ordered
      (before ++ CompositeDeclaration.memberDrafts place owner.name before.length members)) :
    members.foldlM (fun growing member => growing.insertToken member (.member place)
        (owner.name ++ ":" ++ member.name)) (after mode before) =
      advance mode before
        (CompositeDeclaration.memberDrafts place owner.name before.length members) := by
  induction members generalizing before with
  | nil =>
      rw [CompositeDeclaration.memberDrafts, advance, List.append_nil]
      rfl
  | cons member members ih =>
      obtain ⟨draft, same⟩ : ∃ draft, draft =
        member.draft .member (some (place, owner.name)) before.length := ⟨_, rfl⟩
      rw [CompositeDeclaration.memberDrafts, ← same, List.append_cons] at ordered
      have inserted : (after mode before).insertToken member (.member place)
          (owner.name ++ ":" ++ member.name) = advance mode before [draft] := by
        subst same
        exact insert_token_after mode (.member place) ordered.front (.member rfl found rfl)
          (by simp [Position.kind])
      have still : (before ++ [draft])[place]? = some owner := by
        rw [List.getElem?_append_left (List.getElem?_eq_some_iff.mp found).1, found]
      have length : (before ++ [draft]).length = before.length + 1 := List.length_append
      have later := ih still (by rw [length]; exact ordered)
      rw [length] at later
      rw [List.foldlM_cons, inserted, advance_bind, later, CompositeDeclaration.memberDrafts,
        ← same]
      exact (advance_append mode before [draft] _).symm

theorem declare_after (mode : CaseMode) {declared : Declaration}
    (ordered : Draft.Ordered (before ++ declared.drafts before.length)) :
    (after mode before).declare declared = advance mode before (declared.drafts before.length) := by
  cases declared with
  | atom declared =>
      exact insert_token_after mode .atom ordered (.atom rfl rfl) (by decide)
  | composite declared =>
      obtain ⟨draft, same⟩ : ∃ draft, draft = declared.draft before.length := ⟨_, rfl⟩
      have block : (Declaration.composite declared).drafts before.length = draft ::
          CompositeDeclaration.memberDrafts before.length declared.name (before.length + 1)
            declared.members := same ▸ rfl
      have name : draft.name = declared.name := same ▸ rfl
      have length : (before ++ [draft]).length = before.length + 1 := List.length_append
      have found : (before ++ [draft])[before.length]? = some draft := List.getElem?_concat_length
      have pending : (after mode (before ++ [draft])).pending = (after mode before).pending := by
        have composite : draft.kind = .composite := same ▸ rfl
        simp [after, Draft.keptAside, List.filter_append, composite]
      rw [block, List.append_cons] at ordered
      have inserted :
          (after mode before).model.insertNamed declared.name .composite declared.aliases =
            (advance mode before [draft]).map fun growing => (draft.id, growing.model) := by
        subst same
        exact Model.insert_after mode ordered.front (.composite rfl rfl)
      have members := insert_members_after mode found (by rw [length, name]; exact ordered)
      rw [length, name] at members
      have blocks := advance_append mode before [draft]
        (CompositeDeclaration.memberDrafts before.length declared.name (before.length + 1)
          declared.members)
      have state : Growing.mk (after mode (before ++ [draft])).model (after mode before).pending =
          after mode (before ++ [draft]) := by
        rw [← pending]
      have place : draft.id = before.length := same ▸ rfl
      rw [block]
      refine Eq.trans ?_ blocks.symm
      rw [declare, inserted, advance]
      split
      · rw [← members, ← state, ← place]
        rfl
      · rfl

theorem declare_all_after (mode : CaseMode) {declarations : List Declaration}
    (ordered : Draft.Ordered (before ++ Schema.layOut before.length declarations)) :
    declarations.foldlM declare (after mode before) =
      advance mode before (Schema.layOut before.length declarations) := by
  induction declarations generalizing before with
  | nil =>
      rw [Schema.layOut, advance, List.append_nil]
      rfl
  | cons declared rest ih =>
      rw [Schema.layOut, ← List.append_assoc] at ordered
      have length :
          (before ++ declared.drafts before.length).length = before.length + declared.size := by
        rw [List.length_append, declared.drafts_length]
      rw [← length] at ordered
      have later := ih ordered
      rw [length] at later
      rw [List.foldlM_cons, declare_after mode ordered.front, advance_bind, later, Schema.layOut,
        advance_append]

end Growing

end ClaimPolicy

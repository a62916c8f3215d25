import ClaimPolicy.Yaml.Lexeme

/-!
The node that a YAML text describes. Anchored nodes are kept in a table under numbers, so that an
alias may also stand for a node around it. One text describes at most one node; a second document is
refused.
-/
namespace ClaimPolicy.Yaml

inductive Node where
  | scalar (style : ScalarStyle) (tag : Option String) (text : String)
  | sequence (items : List Node)
  | mapping (pairs : List (Node × Node))
  | alias (anchor : Nat)

/-- What an absent node counts as. -/
def Node.absent (tag : Option String) : Node := .scalar .plain tag ""

/-- What is left to read, and the anchors so far. -/
structure Composer where
  rest : List Lexeme
  /-- The number of each anchor name, given when the name was last used. -/
  names : List (String × Nat) := []
  /-- Which anchored node a number stands for, the latest first. -/
  holders : List (Nat × Nat) := []
  /-- The anchored nodes that are complete, and how many have begun. -/
  anchored : List (Nat × Node) := []
  begun : Nat := 0
  handles : List (String × String) := []

namespace Composer

def next? (state : Composer) : Option Lexeme := state.rest.head?

def skip (state : Composer) : Composer := { state with rest := state.rest.drop 1 }

/-- Begins an anchored node. Its number is how many names were in use before it. So a name that is
used again gives way to the next new name, which takes the same number and with it the aliases. -/
def beginAnchor (state : Composer) (name : String) : Composer :=
  let number := state.names.length
  { state with
    names := (name, number) :: state.names.filter (·.1 != name)
    holders := (number, state.begun) :: state.holders
    begun := state.begun + 1 }

def anchors (state : Composer) : List (Nat × Node) :=
  state.holders.filterMap fun (number, node) =>
    (state.anchored.lookup node).map fun node => (number, node)

def nextIs (state : Composer) (lexemes : List Lexeme) : Bool :=
  state.next?.any lexemes.contains

structure Properties where
  anchor : Option String := none
  tag : Option String := none

def expandTag (state : Composer) (handle suffix : String) : Option String :=
  match state.handles.lookup handle with
  | some expansion => some (expansion ++ suffix)
  | none =>
      if handle.isEmpty then some suffix
      else if handle == "!" then some ("!" ++ suffix)
      else if handle == "!!" then some ("tag:yaml.org,2002:" ++ suffix)
      else none

def takeProperties (state : Composer) : Option (Properties × Composer) :=
  match state.rest with
  | .anchor name :: .tag handle suffix :: rest => do
      return (⟨some name, some (← state.expandTag handle suffix)⟩,
        { state with rest := rest })
  | .tag handle suffix :: .anchor name :: rest => do
      return (⟨some name, some (← state.expandTag handle suffix)⟩,
        { state with rest := rest })
  | .anchor name :: rest => some (⟨some name, none⟩, { state with rest := rest })
  | .tag handle suffix :: rest => do
      return (⟨none, some (← state.expandTag handle suffix)⟩, { state with rest := rest })
  | _ => some ({}, state)

/-- Where a node stands: in a flow collection, in a block collection, or as a key or value of a
block mapping, where a sequence may do without indentation of its own. -/
inductive Place where
  | flow
  | block
  | blockMapping
  deriving DecidableEq

mutual

/-- A node. The fuel bounds the depth of the calls; each call is justified by a lexeme of its
own. -/
def node : Nat → Place → Composer → Option (Node × Composer)
  | 0, _, _ => none
  | fuel + 1, place, state =>
      match state.next? with
      | some (.alias name) => do
          return (.alias (← state.names.lookup name), state.skip)
      | _ => do
          let (properties, state) ← state.takeProperties
          match properties.anchor with
          | none => content fuel place properties state
          | some name =>
              let begun := state.begun
              let (node, state) ← content fuel place properties (state.beginAnchor name)
              return (node, { state with anchored := (begun, node) :: state.anchored })

def content : Nat → Place → Properties → Composer → Option (Node × Composer)
  | 0, _, _, _ => none
  | fuel + 1, place, properties, state =>
      match state.next? with
      | some .entry =>
          if place = .blockMapping then do
            let (items, state) ← indentless fuel state
            return (.sequence items, state)
          else if properties.anchor.isSome || properties.tag.isSome then
            some (.absent properties.tag, state)
          else none
      | some (.scalar style text) => some (.scalar style properties.tag text, state.skip)
      | some .flowSequenceStart => do
          let (items, state) ← flowSequence fuel true state.skip
          return (.sequence items, state)
      | some .flowMappingStart => do
          let (pairs, state) ← flowMapping fuel true state.skip
          return (.mapping pairs, state)
      | some .sequenceStart =>
          if place = .flow then none
          else do
            let (items, state) ← blockSequence fuel state.skip
            return (.sequence items, state)
      | some .mappingStart =>
          if place = .flow then none
          else do
            let (pairs, state) ← blockMapping fuel state.skip
            return (.mapping pairs, state)
      | _ =>
          if properties.anchor.isSome || properties.tag.isSome then
            some (.absent properties.tag, state)
          else none

def nodeUnless : Nat → Place → List Lexeme → Composer → Option (Node × Composer)
  | 0, _, _, _ => none
  | fuel + 1, place, followers, state =>
      if state.nextIs followers then some (.absent none, state) else node fuel place state

def blockSequence : Nat → Composer → Option (List Node × Composer)
  | 0, _ => none
  | fuel + 1, state =>
      match state.next? with
      | some .entry => do
          let (item, state) ← nodeUnless fuel .block [.entry, .blockEnd] state.skip
          let (items, state) ← blockSequence fuel state
          return (item :: items, state)
      | some .blockEnd => some ([], state.skip)
      | _ => none

def indentless : Nat → Composer → Option (List Node × Composer)
  | 0, _ => none
  | fuel + 1, state =>
      match state.next? with
      | some .entry => do
          let (item, state) ← nodeUnless fuel .block [.entry, .key, .value, .blockEnd] state.skip
          let (items, state) ← indentless fuel state
          return (item :: items, state)
      | _ => some ([], state)

def blockMapping : Nat → Composer → Option (List (Node × Node) × Composer)
  | 0, _ => none
  | fuel + 1, state =>
      match state.next? with
      | some .key => do
          let (key, state) ← nodeUnless fuel .blockMapping [.key, .value, .blockEnd] state.skip
          let (value, state) ←
            if state.nextIs [.value] then
              nodeUnless fuel .blockMapping [.key, .value, .blockEnd] state.skip
            else some (.absent none, state)
          let (pairs, state) ← blockMapping fuel state
          return ((key, value) :: pairs, state)
      | some .blockEnd => some ([], state.skip)
      | _ => none

def flowSequence : Nat → Bool → Composer → Option (List Node × Composer)
  | 0, _, _ => none
  | fuel + 1, first, state =>
      match (if first then some state else if state.nextIs [.comma] then some state.skip
        else if state.nextIs [.flowSequenceEnd] then some state else none) with
      | none => none
      | some state =>
          match state.next? with
          | some .flowSequenceEnd => some ([], state.skip)
          | some .key => do
              let state := state.skip
              let (key, state) ←
                if state.nextIs [.value, .comma, .flowSequenceEnd] then
                  some (.absent none, state.skip)
                else node fuel .flow state
              let (value, state) ←
                if state.nextIs [.value] then
                  nodeUnless fuel .flow [.comma, .flowSequenceEnd] state.skip
                else some (.absent none, state)
              let (items, state) ← flowSequence fuel false state
              return (.mapping [(key, value)] :: items, state)
          | _ => do
              let (item, state) ← node fuel .flow state
              let (items, state) ← flowSequence fuel false state
              return (item :: items, state)

def flowMapping : Nat → Bool → Composer → Option (List (Node × Node) × Composer)
  | 0, _, _ => none
  | fuel + 1, first, state =>
      match (if first then some state else if state.nextIs [.comma] then some state.skip
        else if state.nextIs [.flowMappingEnd] then some state else none) with
      | none => none
      | some state =>
          match state.next? with
          | some .flowMappingEnd => some ([], state.skip)
          | some .key => do
              let (key, state) ← nodeUnless fuel .flow
                [.value, .comma, .flowMappingEnd] state.skip
              let (value, state) ←
                if state.nextIs [.value] then
                  nodeUnless fuel .flow [.comma, .flowMappingEnd] state.skip
                else some (.absent none, state)
              let (pairs, state) ← flowMapping fuel false state
              return ((key, value) :: pairs, state)
          | _ => do
              let (key, state) ← node fuel .flow state
              let (pairs, state) ← flowMapping fuel false state
              return ((key, .absent none) :: pairs, state)

end

/-- The directives in front of a document. A version comes at most once, and so does each handle. -/
def directives (versioned : Bool) (handles : List (String × String)) :
    List Lexeme → Option Composer
  | .version supported :: rest =>
      if versioned || !supported then none else directives true handles rest
  | .tagHandle handle expansion :: rest =>
      if (handles.lookup handle).isSome then none
      else directives versioned ((handle, expansion) :: handles) rest
  | rest => some ⟨rest, [], [], [], 0, handles⟩

def atEnd (state : Composer) : Bool :=
  state.rest.dropWhile (· == .documentEnd) == [.streamEnd]

end Composer

/-- A text's node, if it has one, and the anchored nodes by number. -/
structure Tree where
  root : Option Node
  anchored : List (Nat × Node)

def Tree.ofLexemes? (lexemes : List Lexeme) : Option Tree := do
  let fuel := 4 * lexemes.length + 4
  if lexemes == [.streamEnd] then return ⟨none, []⟩
  else
    let state ← Composer.directives false [] lexemes
    let explicit := state.nextIs [.documentStart]
    if !explicit && state.rest.length != lexemes.length then none
    else
      let (root, state) ←
        if explicit then
          let state := state.skip
          let closes := match state.next? with
            | some (.version _) | some (.tagHandle _ _) | some .documentStart | some .documentEnd
            | some .streamEnd => true
            | _ => false
          if closes then some (.absent none, state) else state.node fuel .block
        else state.node fuel .block
      if state.atEnd then return ⟨some root, state.anchors⟩ else none

end ClaimPolicy.Yaml

import RaceIngest.Yaml.Lexer
import RaceIngest.Yaml.Node

/-!
# Reading YAML

The tokens of a stream are put together by a machine with a stack of the collections that are
still open (`Frame`). What a token means depends on what the innermost one waits for. A token may
also tell that something was left out: an item, a key or a value that is not written is the blank
scalar.

One kind of collection has no token of its own for its end: a block sequence that is a value and
not indented, and the single entry of a flow sequence. They end at a token that cannot belong to
them, which the collection around them then has to take.

A stream holds one document, or none. Directives may stand in front of a document, and it ends
with the stream or at a marker.

## Main definitions

* `Frame.take`, what an open collection does with a token,
* `Composer`, the state of the machine, `Composer.step?`, and
* `parse?`, the document of a stream.
-/

namespace RaceIngest.Yaml

/-! ## Open collections -/

/-- What a mapping waits for. A key that was read is kept until its value is known. -/
inductive Due where
  /-- The mark of a key, or the end. -/
  | key
  /-- The node of a key that was marked. -/
  | keyNode
  /-- The mark of a value. -/
  | value (key : Node)
  /-- The node of a value that was marked. -/
  | valueNode (key : Node)
  /-- In a flow mapping: a comma, or the end. -/
  | comma
  /-- In a flow mapping: the node of a key that was not marked and has no value. -/
  | bareKey
  deriving Repr

/-- A collection that is still open, with what was read of it in reverse. -/
inductive Frame where
  /-- A block sequence; `begun` tells that an item is due. -/
  | blockItems (p : Properties) (reversed : List Node) (begun : Bool)
  /-- A block sequence that is not indented. -/
  | flatItems (p : Properties) (reversed : List Node) (begun : Bool)
  | blockEntries (p : Properties) (reversed : List (Node × Node)) (due : Due)
  /-- A flow sequence; `begun` tells that an item is due or the end. -/
  | flowItems (p : Properties) (reversed : List Node) (begun : Bool)
  /-- The single entry of a flow sequence that is not in braces. -/
  | flowEntry (due : Due)
  /-- The single entry of a flow sequence, complete. -/
  | flowEntryDone (key value : Node)
  | flowEntries (p : Properties) (reversed : List (Node × Node)) (due : Due)
  deriving Repr

/-- What an open collection does with a token. -/
inductive Effect where
  /-- It takes the token and goes on. -/
  | wait (frame : Frame)
  /-- It takes the token, which opens a collection inside. -/
  | nest (inner outer : Frame)
  /-- It takes the token, which ends it. -/
  | close (node : Node)
  /-- It ended in front of the token. -/
  | pass (node : Node)
  /-- The token belongs to a node inside. -/
  | node (frame : Frame)
  deriving Repr

namespace Frame

/-- The blank scalar in a place that was left out. -/
private def blank : Node := .blank {}

/-- A block sequence that waits for an item or its end. -/
def takeBlockItem? (p : Properties) (reversed : List Node) : Token → Option Effect
  | .item => some (.wait (.blockItems p reversed true))
  | .closeBlock => some (.close (.sequence p reversed.reverse))
  | _ => none

/-- A block sequence that is not indented and waits for an item. -/
def takeFlatItem (p : Properties) (reversed : List Node) : Token → Effect
  | .item => .wait (.flatItems p reversed true)
  | _ => .pass (.sequence p reversed.reverse)

/-- A block mapping that waits for a key or its end. -/
def takeBlockKey? (p : Properties) (reversed : List (Node × Node)) : Token → Option Effect
  | .key => some (.wait (.blockEntries p reversed .keyNode))
  | .closeBlock => some (.close (.mapping p reversed.reverse))
  | _ => none

/-- A block mapping that waits for the mark of a value. -/
def takeBlockValue? (p : Properties) (reversed : List (Node × Node)) (key : Node) :
    Token → Option Effect
  | .value => some (.wait (.blockEntries p reversed (.valueNode key)))
  | token => takeBlockKey? p ((key, blank) :: reversed) token

/-- A flow sequence that waits for a comma or its end. -/
def takeFlowComma? (p : Properties) (reversed : List Node) : Token → Option Effect
  | .comma => some (.wait (.flowItems p reversed true))
  | .closeSequence => some (.close (.sequence p reversed.reverse))
  | _ => none

/-- A flow mapping that waits for a comma or its end. -/
def takeEntryComma? (p : Properties) (reversed : List (Node × Node)) : Token → Option Effect
  | .comma => some (.wait (.flowEntries p reversed .key))
  | .closeMapping => some (.close (.mapping p reversed.reverse))
  | _ => none

/-- A flow mapping that waits for the mark of a value. -/
def takeEntryValue? (p : Properties) (reversed : List (Node × Node)) (key : Node) :
    Token → Option Effect
  | .value => some (.wait (.flowEntries p reversed (.valueNode key)))
  | token => takeEntryComma? p ((key, blank) :: reversed) token

/-- What an open collection does with a token. -/
def take? (frame : Frame) (token : Token) : Option Effect :=
  match frame, token with
  | .blockItems p reversed false, token => takeBlockItem? p reversed token
  | .blockItems p reversed true, .item | .blockItems p reversed true, .closeBlock =>
    takeBlockItem? p (blank :: reversed) token
  | .flatItems p reversed false, token => some (takeFlatItem p reversed token)
  | .flatItems p reversed true, .item | .flatItems p reversed true, .key
  | .flatItems p reversed true, .value | .flatItems p reversed true, .closeBlock =>
    some (takeFlatItem p (blank :: reversed) token)
  | .blockEntries p reversed .key, token => takeBlockKey? p reversed token
  | .blockEntries p reversed .keyNode, .key | .blockEntries p reversed .keyNode, .value
  | .blockEntries p reversed .keyNode, .closeBlock => takeBlockValue? p reversed blank token
  | .blockEntries p reversed (.value key), token => takeBlockValue? p reversed key token
  | .blockEntries p reversed (.valueNode key), .key
  | .blockEntries p reversed (.valueNode key), .value
  | .blockEntries p reversed (.valueNode key), .closeBlock =>
    takeBlockKey? p ((key, blank) :: reversed) token
  | .flowItems p reversed false, token => takeFlowComma? p reversed token
  | .flowItems p reversed true, .closeSequence => some (.close (.sequence p reversed.reverse))
  | .flowItems p reversed true, .key =>
    some (.nest (.flowEntry .keyNode) (.flowItems p reversed false))
  | .flowEntry .keyNode, .value | .flowEntry .keyNode, .comma
  | .flowEntry .keyNode, .closeSequence => some (.wait (.flowEntry (.value blank)))
  | .flowEntry (.value key), .value => some (.wait (.flowEntry (.valueNode key)))
  | .flowEntry (.value key), _ => some (.pass (.mapping {} [(key, blank)]))
  | .flowEntry (.valueNode key), .comma | .flowEntry (.valueNode key), .closeSequence =>
    some (.pass (.mapping {} [(key, blank)]))
  | .flowEntryDone key value, _ => some (.pass (.mapping {} [(key, value)]))
  | .flowEntries p reversed .comma, token => takeEntryComma? p reversed token
  | .flowEntries p reversed .key, .closeMapping => some (.close (.mapping p reversed.reverse))
  | .flowEntries p reversed .key, .key => some (.wait (.flowEntries p reversed .keyNode))
  | .flowEntries p reversed .key, _ => some (.node (.flowEntries p reversed .bareKey))
  | .flowEntries p reversed .keyNode, .value | .flowEntries p reversed .keyNode, .comma
  | .flowEntries p reversed .keyNode, .closeMapping => takeEntryValue? p reversed blank token
  | .flowEntries p reversed (.value key), token => takeEntryValue? p reversed key token
  | .flowEntries p reversed (.valueNode key), .comma
  | .flowEntries p reversed (.valueNode key), .closeMapping =>
    takeEntryComma? p ((key, blank) :: reversed) token
  | frame, _ => some (.node frame)

/-- An open collection after a node that it waited for. -/
def accept (frame : Frame) (node : Node) : Frame :=
  match frame with
  | .blockItems p reversed _ => .blockItems p (node :: reversed) false
  | .flatItems p reversed _ => .flatItems p (node :: reversed) false
  | .flowItems p reversed _ => .flowItems p (node :: reversed) false
  | .blockEntries p reversed (.valueNode key) => .blockEntries p ((key, node) :: reversed) .key
  | .blockEntries p reversed _ => .blockEntries p reversed (.value node)
  | .flowEntry (.valueNode key) => .flowEntryDone key node
  | .flowEntry _ => .flowEntry (.value node)
  | .flowEntryDone key _ => .flowEntryDone key node
  | .flowEntries p reversed (.valueNode key) => .flowEntries p ((key, node) :: reversed) .comma
  | .flowEntries p reversed .bareKey => .flowEntries p ((node, blank) :: reversed) .comma
  | .flowEntries p reversed _ => .flowEntries p reversed (.value node)

/-- Whether a block collection may begin inside. -/
def admitsBlocks : Frame → Bool
  | .blockItems _ _ _ | .flatItems _ _ _ | .blockEntries _ _ _ => true
  | _ => false

/-- Whether a block sequence may begin inside that is not indented. -/
def admitsFlatItems : Frame → Bool
  | .blockEntries _ _ _ => true
  | _ => false

end Frame

/-! ## Documents -/

/-- The bytes that a tag handle stands for in all documents. -/
def standardHandles : List (String × List UInt8) :=
  [("!", Text.Utf8.encode ['!']), ("!!", Text.Utf8.encode "tag:yaml.org,2002:".toList)]

/-- What was read of a stream. -/
inductive Stage where
  /-- Nothing yet. -/
  | start
  /-- Directives. -/
  | directives
  /-- The marker of the start of the document. -/
  | marked
  /-- The beginning of a node, inside the open collections. While its content is due, its
  properties are kept. -/
  | node (pending : Option Properties) (stack : List Frame)
  /-- The document. -/
  | complete (root : Node)
  deriving Repr

/-- The state of the machine. -/
structure Composer where
  stage : Stage := .start
  /-- The numbers of the anchors that were read, by name. -/
  anchors : List (String × Nat) := []
  /-- What tag handles stand for, by directives. -/
  handles : List (String × List UInt8) := []
  /-- Whether a version was given. -/
  versioned : Bool := false
  deriving Repr

namespace Composer

/-- The machine at another stage. -/
def goto (m : Composer) (stage : Stage) : Composer := { m with stage }

/-- Takes a directive. A version may be given once, and a handle be defined once. -/
def direct? (m : Composer) : Directive → Option Composer
  | .version major minor =>
    if m.versioned || major ≠ 1 || !(minor = 1 || minor = 2) then none
    else some { m with stage := .directives, versioned := true }
  | .handle name bytes =>
    if (m.handles.lookup name).isSome then none
    else some { m with stage := .directives, handles := (name, bytes) :: m.handles }

/-- The bytes of a tag. -/
def tag? (m : Composer) (name : TagName) : Option (List UInt8) :=
  if name.handle.isEmpty then some name.suffix
  else ((m.handles ++ standardHandles).lookup name.handle).map (· ++ name.suffix)

/-- Gives an anchor its number: the number of other names that were used so far. -/
def number (m : Composer) (name : String) : Nat × Composer :=
  let number := m.anchors.length
  (number, { m with anchors := (name, number) :: m.anchors.filter fun (other, _) => other != name })

/-- The machine after a complete node inside open collections. -/
def complete (m : Composer) (node : Node) : List Frame → Composer
  | [] => m.goto (.complete node)
  | frame :: stack => m.goto (.node none (frame.accept node :: stack))

/-- Begins a node inside open collections, given the properties that were read of it: the machine
after the token, or the blank scalar when the token does not belong to the node. -/
def begin? (m : Composer) (pending : Option Properties) (stack : List Frame) (token : Token) :
    Option (Composer ⊕ Node) :=
  let p := pending.getD {}
  let admitsBlocks := stack.head?.all Frame.admitsBlocks
  let blank : Option (Composer ⊕ Node) := pending.map fun p => .inr (.blank p)
  let nest (frame : Frame) : Option (Composer ⊕ Node) :=
    some (.inl (m.goto (.node none (frame :: stack))))
  match token with
  | .reference name =>
    if pending.isSome then blank
    else (m.anchors.lookup name).map fun number => .inl (m.complete (.reference number) stack)
  | .anchor name =>
    if p.anchor.isSome then blank
    else
      let (number, m) := m.number name
      some (.inl (m.goto (.node (some { p with anchor := some number }) stack)))
  | .tag name =>
    if p.tag.isSome then blank
    else (m.tag? name).map fun tag =>
      .inl (m.goto (.node (some { p with tag := some tag }) stack))
  | .scalar text style => some (.inl (m.complete (.scalar p text style) stack))
  | .openSequence => nest (.flowItems p [] true)
  | .openMapping => nest (.flowEntries p [] .key)
  | .openBlockSequence => if admitsBlocks then nest (.blockItems p [] false) else blank
  | .openBlockMapping => if admitsBlocks then nest (.blockEntries p [] .key) else blank
  | .item => if stack.head?.any Frame.admitsFlatItems then nest (.flatItems p [] true) else blank
  | _ => blank

/-- Takes a token after the document. -/
def takeAfter? (m : Composer) (root : Node) : Token → Option Composer
  | .documentEnd => some (m.goto (.complete root))
  | _ => none

/-- Takes a token inside open collections, the innermost of which is given a complete node
first. -/
def take? (m : Composer) (token : Token) : Option Node → List Frame → Option Composer
  | none, [] =>
    match m.begin? none [] token with
    | some (.inl m) => some m
    | _ => none
  | some node, [] => m.takeAfter? node token
  | node, frame :: stack =>
    let frame := node.elim frame frame.accept
    match frame.take? token with
    | none => none
    | some (.wait frame) => some (m.goto (.node none (frame :: stack)))
    | some (.nest inner outer) => some (m.goto (.node none (inner :: outer :: stack)))
    | some (.close node) => some (m.complete node stack)
    | some (.pass node) => m.take? token (some node) stack
    | some (.node frame) =>
      match m.begin? none (frame :: stack) token with
      | some (.inl m) => some m
      | _ => none

/-- Takes a token. -/
def step? (m : Composer) (token : Token) : Option Composer :=
  match m.stage with
  | .start =>
    match token with
    | .directive d => m.direct? d
    | .documentStart => some (m.goto .marked)
    | token => m.take? token none []
  | .directives =>
    match token with
    | .directive d => m.direct? d
    | .documentStart => some (m.goto .marked)
    | _ => none
  | .marked =>
    match token with
    | .documentEnd => some (m.goto (.complete (.blank {})))
    | .directive _ | .documentStart => none
    | token => m.take? token none []
  | .node none stack => m.take? token none stack
  | .node (some p) stack =>
    match m.begin? (some p) stack token with
    | none => none
    | some (.inl m) => some m
    | some (.inr node) => m.take? token (some node) stack
  | .complete root => m.takeAfter? root token

/-- The document, at the end of the stream. -/
def finish? (m : Composer) : Option Document :=
  match m.stage with
  | .start => some ⟨none⟩
  | .marked => some ⟨some (.blank {})⟩
  | .node (some p) [] => some ⟨some (.blank p)⟩
  | .complete root => some ⟨some root⟩
  | _ => none

end Composer

/-- The document of a stream. -/
def parse? (cs : List Char) : Option Document := do
  let tokens ← tokens? cs
  let m ← tokens.toList.foldlM Composer.step? {}
  m.finish?

end RaceIngest.Yaml

import Stencil.Arena

/-!
# Building an arena

A template is compiled into an arena that may hold others already. Each part is pushed to the end of
its list and known by its number there, and what is found out later is written to a part that was
pushed before: a body when its source ends, the target of a link when the next one has a body, and
the text after a substitution when the next literal is complete. An inline template is compiled into
the same arena before the rest of the source around it.
-/
namespace Stencil

namespace Arena

def counts (arena : Arena) : Counts :=
  ⟨arena.nodes.length, arena.bodies.length, arena.shared.length⟩

def pushNode (arena : Arena) (node : Node) : Arena :=
  { arena with nodes := arena.nodes ++ [node] }

def pushBody (arena : Arena) (entry : BodyEntry) : Arena :=
  { arena with bodies := arena.bodies ++ [entry] }

def pushShared (arena : Arena) (joining : Joining) : Arena :=
  { arena with shared := arena.shared ++ [joining] }

def updateNode (arena : Arena) (id : Nat) (change : Node → Node) : Arena :=
  { arena with nodes := arena.nodes.modify id change }

def setBody (arena : Arena) (id : Nat) (entry : BodyEntry) : Arena :=
  { arena with bodies := arena.bodies.set id entry }

/-- Gives each node but the last a body of its own that holds the next one, as the links of a dotted
name are filled. -/
def linkAll (arena : Arena) : List Nat → Arena
  | id :: next :: ids =>
    let linked := (arena.pushBody ⟨[[]], [next]⟩).updateNode id fun node =>
      { node with target := .inline arena.bodies.length }
    linked.linkAll (next :: ids)
  | _ => arena

end Arena

/-- A node without anything around it, as it is pushed before the rest is known. -/
def Chain.link (chain : Chain) (kind : NodeKind) (name : Text) : Node where
  kind := kind
  name := name
  rewind := 0
  shared := chain.shared
  origin := chain.origin
  leading := []
  trailing := []
  target := .own
  span := chain.span

/-- A body that is being built, with the arena it is a part of. The arena also grows by the bodies
of inline templates meanwhile. -/
structure Builder where
  arena : Arena
  body : Nat
  /-- The literal text since the last substitution, which may come in several runs. -/
  literal : Text
  /-- The last substitution, if it takes text of the literal after it. It has to wait until that
  literal is complete. -/
  pending : Option (Nat × Mark)
  statics : List Text
  substitutions : List Nat

namespace Builder

/-- What is left of the literal when the last substitution got its part, and the arena with that
part written to its node. -/
def takeLiteral (builder : Builder) : Text × Arena :=
  match builder.pending with
  | none => (builder.literal, builder.arena)
  | some (prev, mark) =>
    let (taken, kept) := Margin.cutTrailing (some mark) builder.literal
    (kept, builder.arena.updateNode prev fun node => { node with trailing := taken })

/-- Ends the body: its entry is written in the place that was kept for it when it began. -/
def finish (builder : Builder) : Arena :=
  let (literal, arena) := builder.takeLiteral
  let statics := if literal.isEmpty then builder.statics else builder.statics ++ [literal]
  arena.setBody builder.body ⟨statics, builder.substitutions⟩

/-- The body goes on after a substitution, with no literal text so far. -/
def next (builder : Builder) (arena : Arena) (literal : Text) (sub : Nat) (after : Option Mark) :
    Builder where
  arena := arena
  body := builder.body
  literal := []
  pending := after.map fun mark => (sub, mark)
  statics := builder.statics ++ [literal]
  substitutions := builder.substitutions ++ [sub]

end Builder

/-- The bodies of a source are shorter than the source, as each has braces around it. -/
theorem Scan.weight_ofSource_le (start : Nat) (source : Text) :
    Token.weight (ofSource start source).tokens ≤ source.length := by
  have h := weight_ofLexemes_le start (Lexeme.readAll source)
  rwa [Lexeme.write_readAll] at h

mutual

/-- Compiles a source that starts at byte `base` of the outermost one into an arena. The result has
the number of its body. -/
def Arena.compileBody (arena : Arena) (base : Nat) (source : Text) :
    Except SyntaxError (Nat × Arena) :=
  let builder : Builder := ⟨arena.pushBody ⟨[], []⟩, arena.bodies.length, [], none, [], []⟩
  have := Scan.weight_ofSource_le base source
  (builder.visitAll (Scan.ofSource base source).failure (Scan.ofSource base source).tokens).map
    fun built => (builder.body, built)
termination_by (4 * source.length + 1, 0)
decreasing_by simp only [Prod.lex_def]; omega

/-- Takes the tokens one after another, and then the error that comes after them. A body that cannot
be compiled ends it before that. -/
def Builder.visitAll (builder : Builder) (failure : Option SyntaxError) :
    List Token → Except SyntaxError Arena
  | [] =>
    match failure with
    | none => .ok builder.finish
    | some error => .error error
  | .literal run :: tokens =>
    Builder.visitAll { builder with literal := builder.literal ++ run } failure tokens
  | .brace b :: tokens =>
    Builder.visitAll { builder with literal := builder.literal ++ [b.char] } failure tokens
  | .body raw start :: tokens =>
    (builder.visitBody raw start).bind fun builder => builder.visitAll failure tokens
termination_by tokens => (4 * Token.weight tokens, tokens.length)
decreasing_by all_goals simp only [Prod.lex_def, Token.weight, List.length_cons, true_and]; omega

/-- Takes the substitution with body `raw` that opens at byte `start`, and the literal before it. -/
def Builder.visitBody (builder : Builder) (raw : Text) (start : Nat) : Except SyntaxError Builder :=
  let (literal, arena) := builder.takeLiteral
  let head := arena.nodes.length
  match h : Directive.read raw with
  | .comment =>
    let chain : Chain := ⟨arena.shared.length, head, .ofBody raw start⟩
    let arena := (arena.pushShared ⟨[], false, false⟩).pushNode (chain.link .comment [])
    .ok (builder.next arena literal head none)
  | .substitution clauses =>
    have := Directive.inlineLength_le h
    let (kept, leading) := Margin.cutLeading clauses.before builder.substitutions.isEmpty literal
    (arena.visitClauses clauses (.ofBody raw start)).map fun arena =>
      let arena := arena.updateNode head fun node => { node with leading := leading }
      builder.next arena kept head clauses.after
termination_by (4 * raw.length + 4, 0)
decreasing_by simp only [Prod.lex_def]; omega

/-- Pushes the nodes of a substitution that is no comment, and what they are filled into. Nothing is
around them yet. -/
def Arena.visitClauses (arena : Arena) (clauses : Clauses) (span : Span) :
    Except SyntaxError Arena :=
  let head := arena.nodes.length
  let chain : Chain := ⟨arena.shared.length, head, span⟩
  let arena := arena.pushShared clauses.joining
  match clauses.fault? with
  | some fault => .error ⟨fault, span.start⟩
  | none =>
    if clauses.insert then
      .ok (arena.pushNode { chain.link .insert clauses.path with rewind := clauses.rewind })
    else
      let (first, more) := clauses.components
      let arena := ((first :: more).map (chain.link .value)).foldl Arena.pushNode arena
      let arena := arena.updateNode head fun node => { node with rewind := clauses.rewind }
      let arena := arena.linkAll (List.range' head (more.length + 1))
      (arena.compileData (span.start + 2) clauses.data).map fun (target, arena) =>
        arena.updateNode (head + more.length) fun node => { node with target := target }
termination_by (4 * DataClause.inlineLength clauses.data + 3, 0)
decreasing_by simp only [Prod.lex_def]; omega

/-- What the data section of a body that starts at byte `start` makes of a node: an inline template
is compiled into the same arena. -/
def Arena.compileData (arena : Arena) (start : Nat) (data : Option DataClause) :
    Except SyntaxError (NodeTarget × Arena) :=
  match data with
  | none => .ok (.own, arena)
  | some (.named []) => .ok (.own, arena)
  | some (.named name) => .ok (.named name, arena)
  | some (.inline source offset) =>
    (arena.compileBody (start + offset) source).map fun (body, arena) => (.inline body, arena)
termination_by (4 * DataClause.inlineLength data + 2, 0)
decreasing_by simp only [Prod.lex_def, DataClause.inlineLength]; omega

end

end Stencil

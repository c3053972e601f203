import SequenceChart.Source.Document
set_option autoImplicit false

/-!
# The grammar of a document

A document is a row of phrases.  A phrase is a derivation tree with the tokens themselves at its
leaves: `tokens` reads the leaves from left to right, and `item` says what the phrase writes.

* document: (title | participant | statement)*
* title: `title` text
* participant: `participant` name (`as` name)?
* statement: `opt` text? statement* `end` | `alt` text? (`else` text?)* `end` | signal
* signal: name tail? shaft head? mark? name (`:` text)?, with a tail or a head

Nothing here mentions how a document is read.
-/

namespace SequenceChart

/-- A token whose kind belongs to a family, and the member of the family that it is. -/
structure Leaf {ι : Type} (kind : ι → TokenKind) where
  choice : ι
  token : Token
  kind_eq : token.kind = kind choice

/-- A token of one kind. -/
abbrev Terminal (kind : TokenKind) := Leaf fun _ : Unit => kind

namespace Leaf

variable {ι : Type} {kind : ι → TokenKind}

/-- The row of one token. -/
def tokens (l : Leaf kind) : List Token := [l.token]

/-- The text of a leaf. -/
def content (l : Leaf kind) : String := l.token.content

end Leaf

/-- The leaves of a part that may be absent. -/
def optionally {α : Type} (tokens : α → List Token) : Option α → List Token
  | none => []
  | some part => tokens part

@[simp] theorem optionally_none {α : Type} (tokens : α → List Token) :
    optionally tokens none = [] := rfl

@[simp] theorem optionally_some {α : Type} (tokens : α → List Token) (part : α) :
    optionally tokens (some part) = tokens part := rfl

/-- The kind of a mark: a plus activates the target, a minus deactivates the source. -/
def markKind (activates : Bool) : TokenKind :=
  if activates then .activateMark else .deactivateMark

/-- A colon and the message after it. -/
@[ext]
structure MessagePhrase where
  colon : Terminal .colon
  text : Terminal .text

/-- The leaves of a message. -/
def MessagePhrase.tokens (p : MessagePhrase) : List Token := p.colon.tokens ++ p.text.tokens

/-- The parts of a signal that have been written so far, from left to right. -/
structure SignalSketch where
  source : Terminal .identifier
  tail : Option (Leaf TokenKind.tail) := none
  shaft : Option (Leaf TokenKind.shaft) := none
  head : Option (Leaf TokenKind.head) := none
  mark : Option (Leaf markKind) := none
  target : Option (Terminal .identifier) := none

namespace SignalSketch

/-- The leaves written so far. -/
def tokens (k : SignalSketch) : List Token :=
  k.source.tokens ++ (optionally Leaf.tokens k.tail ++ (optionally Leaf.tokens k.shaft
    ++ (optionally Leaf.tokens k.head ++ (optionally Leaf.tokens k.mark
    ++ optionally Leaf.tokens k.target))))

/-- The signal written so far; a part that is missing has its default. -/
def signal (k : SignalSketch) : Signal where
  source := k.source.content
  target := (k.target.map Leaf.content).getD ""
  tail := k.tail.map Leaf.choice
  head := k.head.map Leaf.choice
  dotted := k.shaft.any Leaf.choice
  activates := k.mark.any fun m => m.choice
  deactivates := k.mark.any fun m => !m.choice

end SignalSketch

/-- A derivation of a signal. -/
@[ext]
structure SignalPhrase where
  source : Terminal .identifier
  tail : Option (Leaf TokenKind.tail)
  shaft : Leaf TokenKind.shaft
  head : Option (Leaf TokenKind.head)
  mark : Option (Leaf markKind)
  target : Terminal .identifier
  message : Option MessagePhrase
  pointed : tail.isSome ∨ head.isSome

namespace SignalPhrase

/-- The leaves of a signal. -/
def tokens (p : SignalPhrase) : List Token :=
  p.source.tokens ++ (optionally Leaf.tokens p.tail ++ (p.shaft.tokens
    ++ (optionally Leaf.tokens p.head ++ (optionally Leaf.tokens p.mark
    ++ (p.target.tokens ++ optionally MessagePhrase.tokens p.message)))))

/-- The signal that is written. -/
def signal (p : SignalPhrase) : Signal where
  source := p.source.content
  target := p.target.content
  tail := p.tail.map Leaf.choice
  head := p.head.map Leaf.choice
  dotted := p.shaft.choice
  message := p.message.map fun m => m.text.content
  activates := p.mark.any fun m => m.choice
  deactivates := p.mark.any fun m => !m.choice

/-- A signal up to its target. -/
def sketch (p : SignalPhrase) : SignalSketch :=
  ⟨p.source, p.tail, some p.shaft, p.head, p.mark, some p.target⟩

theorem tokens_eq_sketch (p : SignalPhrase) :
    p.tokens = p.sketch.tokens ++ optionally MessagePhrase.tokens p.message := by
  simp [tokens, sketch, SignalSketch.tokens]

theorem signal_eq_sketch (p : SignalPhrase) :
    p.signal = { p.sketch.signal with message := p.message.map fun m => m.text.content } := by
  simp [signal, sketch, SignalSketch.signal]

end SignalPhrase

/-- The word `else` and the condition that may follow it. -/
@[ext]
structure ElsePhrase where
  word : Terminal (.keyword .else_)
  condition : Option (Terminal .text)

namespace ElsePhrase

/-- The leaves of a branch. -/
def tokens (p : ElsePhrase) : List Token :=
  p.word.tokens ++ optionally Leaf.tokens p.condition

/-- The branch that is written; its body is empty. -/
def block (p : ElsePhrase) : Block := ⟨.else_, p.condition.map Leaf.content, []⟩

end ElsePhrase

/-- A derivation of a statement. -/
inductive StatementPhrase where
  | opt (word : Terminal (.keyword .opt)) (condition : Option (Terminal .text))
      (body : List StatementPhrase) (stop : Terminal (.keyword .end_))
  | alt (word : Terminal (.keyword .alt)) (condition : Option (Terminal .text))
      (more : List ElsePhrase) (stop : Terminal (.keyword .end_))
  | signal (p : SignalPhrase)

namespace StatementPhrase

mutual

/-- The leaves of a statement. -/
def tokens : StatementPhrase → List Token
  | opt word condition body stop =>
    word.tokens ++ (optionally Leaf.tokens condition ++ (allTokens body ++ stop.tokens))
  | alt word condition more stop =>
    word.tokens
      ++ (optionally Leaf.tokens condition ++ (more.flatMap ElsePhrase.tokens ++ stop.tokens))
  | signal p => p.tokens

/-- The leaves of a row of statements. -/
def allTokens : List StatementPhrase → List Token
  | [] => []
  | p :: rest => p.tokens ++ allTokens rest

end

mutual

/-- The statement that is written. -/
def statement : StatementPhrase → Statement
  | opt _ condition body _ => .block ⟨.opt, condition.map Leaf.content, statements body⟩
  | alt _ condition more _ =>
    .group (⟨.alt, condition.map Leaf.content, []⟩ :: more.map ElsePhrase.block)
  | signal p => .signal p.signal

/-- The statements that a row of derivations writes. -/
def statements : List StatementPhrase → List Statement
  | [] => []
  | p :: rest => p.statement :: statements rest

end

end StatementPhrase

/-- The word `as` and the name after it. -/
@[ext]
structure AliasPhrase where
  word : Terminal (.keyword .as_)
  name : Terminal .identifier

/-- The leaves of an alias. -/
def AliasPhrase.tokens (p : AliasPhrase) : List Token := p.word.tokens ++ p.name.tokens

/-- A derivation of a top-level construct. -/
inductive Phrase where
  | title (word : Terminal (.keyword .title)) (text : Terminal .text)
  | participant (word : Terminal (.keyword .participant)) (name : Terminal .identifier)
      (alias? : Option AliasPhrase)
  | statement (p : StatementPhrase)

namespace Phrase

/-- The leaves of a construct. -/
def tokens : Phrase → List Token
  | title word text => word.tokens ++ text.tokens
  | participant word name alias? =>
    word.tokens ++ (name.tokens ++ optionally AliasPhrase.tokens alias?)
  | statement p => p.tokens

/-- The item that is written. -/
def item : Phrase → Item
  | title _ text => .title text.content
  | participant _ name alias? => .participant name.content (alias?.map fun a => a.name.content)
  | statement p => .statement p.statement

end Phrase

namespace Item

/-- The text of a title clause. -/
def title? : Item → Option String
  | title text => some text
  | _ => none

/-- The statement that an item is. -/
def statement? : Item → Option Statement
  | statement s => some s
  | _ => none

end Item

/-- The title of a document: the text of its last title clause. -/
def Document.title? (items : List Item) : Option String := (items.filterMap Item.title?).getLast?

/-- The statements of a document in order. -/
def Document.statements (items : List Item) : List Statement := items.filterMap Item.statement?

/-- The tokens before the first end of the input. -/
def beforeEnd (ts : List Token) : List Token := ts.takeWhile fun t => t.kind ≠ .endOfInput

/-- The phrases derive what stands before the first end of the input. -/
def Derives (phrases : List Phrase) (ts : List Token) : Prop :=
  phrases.flatMap Phrase.tokens = beforeEnd ts

end SequenceChart

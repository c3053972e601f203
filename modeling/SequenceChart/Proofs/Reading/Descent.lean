import SequenceChart.Proofs.Reading.Lookahead
set_option autoImplicit false

/-!
# Reading by descent

A document can also be read by one routine for each construct, which looks one token ahead and
calls the routines of its parts: a loop over the items, a loop over the statements of an `opt`
block, which may be blocks themselves, and a loop over the branches after `alt`.  Nothing in the
routines bounds the rounds of a loop or the depth of the calls.  Both have a limit here, and a
descent that exceeds it is cut off; `Proofs/Reading/Halting` shows that none is.
-/

namespace SequenceChart

/-- The shape of a tail. -/
def TokenKind.tail? : TokenKind → Option ArrowEnd
  | tail shape => some shape
  | _ => none

/-- The shape of a head. -/
def TokenKind.head? : TokenKind → Option ArrowEnd
  | head shape => some shape
  | _ => none

theorem TokenKind.tail?_eq_some_iff {kind : TokenKind} {shape : ArrowEnd} :
    kind.tail? = some shape ↔ kind = tail shape := by
  cases kind <;> simp [tail?]

theorem TokenKind.head?_eq_some_iff {kind : TokenKind} {shape : ArrowEnd} :
    kind.head? = some shape ↔ kind = head shape := by
  cases kind <;> simp [head?]

/-- Why a descent stops before its end. -/
inductive Stop where
  /-- a syntax error -/
  | fault (why : SyntaxFault)
  /-- more rounds or deeper calls than the limit -/
  | cut

/-- A routine of the descent: it moves on in the tokens, and has a result or stops. -/
abbrev Descent (α : Type) := EStateM Stop Lookahead α

namespace Descent

variable {α β σ : Type}

/-- The current token. -/
def current : Descent Token := return (← get).current

/-- Consumes the current token. -/
def advance : Descent Unit := modify Lookahead.advance

def refuse (problem : SyntaxProblem) (at_ : Token) : Descent α := throw (.fault ⟨problem, at_⟩)

/-- The current token has one of the kinds. -/
def check (kinds : List TokenKind) : Descent Bool := return (← current).kind ∈ kinds

/-- Consumes the current token if it has the kind. -/
def accept (kind : TokenKind) : Descent Bool := do
  if ← check [kind] then
    advance
    return true
  else return false

/-- Consumes a token that must have one of the kinds. -/
def expect (kinds : List TokenKind) : Descent Token := do
  let t ← current
  if ← check kinds then
    advance
    return t
  else refuse (.expected kinds t) t

/-- The text of a token that must have the kind. -/
def read (kind : TokenKind) : Descent String := return (← expect [kind]).content

/-- A text, if one follows. -/
def acceptText : Descent (Option String) := do
  if ← check [.text] then return some (← read .text) else return none

/-- Rounds of a loop until one leaves it. -/
def rounds (round : σ → Descent (σ ⊕ α)) : Nat → σ → Descent α
  | 0, _ => throw .cut
  | limit + 1, s => do
    match ← round s with
    | .inl s => rounds round limit s
    | .inr a => return a

/-! ## What the routines do with the current token -/

variable {c c' : Lookahead}

theorem bind_of_ok {m : Descent α} {a : α} (h : m c = .ok a c') (f : α → Descent β) :
    (m >>= f) c = f a c' := by
  show EStateM.bind m f c = _
  rw [EStateM.bind, h]

theorem bind_of_error {m : Descent α} {why : Stop} (h : m c = .error why c')
    (f : α → Descent β) : (m >>= f) c = .error why c' := by
  show EStateM.bind m f c = _
  rw [EStateM.bind, h]

theorem exists_of_map {m : Descent α} {g : α → β} {b : β}
    (h : (do return g (← m) : Descent β) c = .ok b c') : ∃ a, m c = .ok a c' ∧ b = g a := by
  cases hm : m c with
  | error why c₁ =>
    rw [bind_of_error hm] at h
    cases h
  | ok a c₁ =>
    rw [bind_of_ok hm] at h
    cases h
    exact ⟨a, rfl, rfl⟩

theorem current_eq (c : Lookahead) : current c = .ok c.current c := rfl

theorem check_of_mem {kinds : List TokenKind} (h : c.current.kind ∈ kinds) :
    check kinds c = .ok true c := by
  show EStateM.Result.ok (decide (c.current.kind ∈ kinds)) c = _
  rw [decide_eq_true h]

theorem check_of_not_mem {kinds : List TokenKind} (h : c.current.kind ∉ kinds) :
    check kinds c = .ok false c := by
  show EStateM.Result.ok (decide (c.current.kind ∈ kinds)) c = _
  rw [decide_eq_false h]

theorem accept_of_eq {kind : TokenKind} (h : c.current.kind = kind) :
    accept kind c = .ok true c.advance := by
  rw [accept, bind_of_ok (check_of_mem (List.mem_singleton.2 h))]
  rfl

theorem accept_of_ne {kind : TokenKind} (h : c.current.kind ≠ kind) :
    accept kind c = .ok false c := by
  rw [accept, bind_of_ok (check_of_not_mem (mt List.mem_singleton.1 h))]
  rfl

theorem read_of_eq {kind : TokenKind} (h : c.current.kind = kind) :
    read kind c = .ok c.current.content c.advance := by
  have hexpect : expect [kind] c = .ok c.current c.advance := by
    rw [expect, bind_of_ok (current_eq c)]
    show (check _ >>= _) c = _
    rw [bind_of_ok (check_of_mem (List.mem_singleton.2 h))]
    rfl
  rw [read, bind_of_ok hexpect]
  rfl

/-! ## Signals -/

/-- One end of an arrow, if it follows. -/
def acceptEnd (shape? : TokenKind → Option ArrowEnd) : Descent (Option ArrowEnd) := do
  let shape := shape? (← current).kind
  if shape.isSome then advance
  return shape

theorem acceptEnd_of_some {shape? : TokenKind → Option ArrowEnd} {shape : ArrowEnd}
    (h : shape? c.current.kind = some shape) : acceptEnd shape? c = .ok (some shape) c.advance := by
  rw [acceptEnd, bind_of_ok (current_eq c), h]
  rfl

theorem acceptEnd_of_none {shape? : TokenKind → Option ArrowEnd}
    (h : shape? c.current.kind = none) : acceptEnd shape? c = .ok none c := by
  rw [acceptEnd, bind_of_ok (current_eq c), h]
  rfl

/-- The shaft of an arrow; true if it is dotted. -/
def shaft : Descent Bool := do
  if ← accept (.shaft true) then return true
  else
    let _ ← expect [.shaft false]
    return false

/-- An arrow after the name of its source. -/
def arrow (source : String) : Descent Signal := do
  let first ← current
  let tail ← acceptEnd TokenKind.tail?
  let dotted ← shaft
  let head ← acceptEnd TokenKind.head?
  if head.isNone && tail.isNone then refuse .endless first
  else return { source, target := "", tail, head, dotted }

/-- The mark of an arrow, if one follows. -/
def mark (s : Signal) : Descent Signal := do
  if ← accept .activateMark then return { s with activates := true }
  else if ← accept .deactivateMark then return { s with deactivates := true }
  else return s

/-- The message of a signal, if a colon follows. -/
def message (s : Signal) : Descent Signal := do
  if ← accept .colon then return { s with message := some (← read .text) } else return s

/-- A signal after the name of its source. -/
def signalFrom (source : String) : Descent Signal := do
  let s ← mark (← arrow source)
  message { s with target := ← read .identifier }

def signal : Descent Signal := do signalFrom (← read .identifier)

theorem signal_of_identifier (h : c.current.kind = .identifier) :
    signal c = signalFrom c.current.content c.advance := by
  rw [signal, bind_of_ok (read_of_eq h)]

/-! ## Blocks -/

/-- A round of the loop over the branches after `alt`: the finished ones and the one begun. -/
def altRound : List Block × Block → Descent (List Block × Block ⊕ List Block)
  | (done, begun) => do
    if ← accept (.keyword .else_) then
      return .inl (done ++ [begun], ⟨.else_, ← acceptText, []⟩)
    else
      let _ ← expect [.keyword .else_, .keyword .end_]
      return .inr (done ++ [begun])

/-- The branches after `alt`, which have no statements. -/
def alt (limit : Nat) : Descent (List Block) := do
  rounds altRound limit ([], ⟨.alt, ← acceptText, []⟩)

/-- A round of the loop over the statements of an `opt` block. -/
def optRound (statement : Descent Statement) (body : List Statement) :
    Descent (List Statement ⊕ List Statement) := do
  if ← check [.keyword .end_, .endOfInput] then return .inr body
  else return .inl (body ++ [← statement])

/-- An `opt` block after `opt`. -/
def opt (statement : Descent Statement) (limit : Nat) : Descent Block := do
  let condition ← acceptText
  let body ← rounds (optRound statement) limit []
  let _ ← expect [.keyword .end_]
  return ⟨.opt, condition, body⟩

/-- A statement; the limit is that of the depth and of the rounds of each loop in it. -/
def statement : Nat → Descent Statement
  | 0 => throw .cut
  | limit + 1 => do
    if ← accept (.keyword .opt) then return .block (← opt (statement limit) limit)
    else if ← accept (.keyword .alt) then return .group (← alt limit)
    else if ← check [.identifier] then return .signal (← signal)
    else
      let t ← current
      refuse (.noStatement t) t

/-! ## Documents -/

/-- A declaration after `participant`. -/
def participant : Descent Item := do
  let name ← read .identifier
  if ← accept (.keyword .as_) then return .participant name (some (← read .identifier))
  else return .participant name none

/-- A round of the loop over the items. -/
def documentRound (limit : Nat) (items : List Item) : Descent (List Item ⊕ List Item) := do
  if ← check [.endOfInput] then return .inr items
  else if ← accept (.keyword .title) then return .inl (items ++ [.title (← read .text)])
  else if ← accept (.keyword .participant) then return .inl (items ++ [← participant])
  else return .inl (items ++ [.statement (← statement limit)])

/-- A chart. -/
def chart (limit : Nat) : Descent Chart :=
  return Chart.ofItems (← rounds (documentRound limit) limit [])

end Descent

end SequenceChart

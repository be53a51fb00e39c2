import TeamOrders.Text.Blank

/-!
# Patterns

Patterns of texts with named slots. `ends` lists all the ways in which a pattern can be matched at
the start of a text, the preferred one first: alternatives are preferred in their order, and repeated
parts are taken as often as possible. `fullMatch?` is the first way that leaves nothing of the text.
-/

namespace TeamOrders

/-- A pattern with slots named by a type. -/
inductive Pattern (σ : Type) where
  /-- The empty text. -/
  | empty
  /-- One character of a class. -/
  | char (accepts : Char → Bool)
  /-- One or more characters of a class. -/
  | run (accepts : Char → Bool)
  /-- One pattern, then another. -/
  | seq (first second : Pattern σ)
  /-- One pattern or another. -/
  | alt (first second : Pattern σ)
  /-- Any number of matches of a pattern, one after the other. -/
  | star (item : Pattern σ)
  /-- A pattern whose text is kept. -/
  | slot (name : σ) (body : Pattern σ)

namespace Pattern

variable {σ : Type}

/-- A part of a text: what follows its start, and what follows its end. -/
structure Span where
  start : List Char
  stop : List Char

/-- The characters of a part. -/
def Span.text (span : Span) : List Char := span.start.take (span.start.length - span.stop.length)

/-- One way to match: the slots filled on the way, and the text that is left. -/
structure Reach (σ : Type) where
  slots : List (σ × Span)
  rest : List Char

/-- What is left of a text after one, two, three, … characters of a class. -/
def rests (accepts : Char → Bool) : List Char → List (List Char)
  | [] => []
  | c :: s => if accepts c then s :: rests accepts s else []

/-- Repeats a step up to a number of times, more often first. -/
def iterate (step : List Char → List (Reach σ)) : Nat → List Char → List (Reach σ)
  | 0, s => [⟨[], s⟩]
  | times + 1, s =>
    ((step s).flatMap fun first =>
      (iterate step times first.rest).map fun more => ⟨first.slots ++ more.slots, more.rest⟩)
    ++ [⟨[], s⟩]

/-- The ways to match a pattern at the start of a text, the preferred one first. -/
def ends : Pattern σ → List Char → List (Reach σ)
  | empty, s => [⟨[], s⟩]
  | char accepts, s =>
    match s with
    | c :: rest => if accepts c then [⟨[], rest⟩] else []
    | [] => []
  | run accepts, s => (rests accepts s).reverse.map fun rest => ⟨[], rest⟩
  | seq first second, s =>
    (first.ends s).flatMap fun a =>
      (second.ends a.rest).map fun b => ⟨a.slots ++ b.slots, b.rest⟩
  | alt first second, s => first.ends s ++ second.ends s
  -- A turn that takes nothing leads nowhere new, so there are turns enough.
  | star item, s => iterate item.ends s.length s
  | slot name body, s => (body.ends s).map fun a => ⟨(name, ⟨s, a.rest⟩) :: a.slots, a.rest⟩

/-- The slots of the preferred way to match the whole text. -/
def fullMatch? (pattern : Pattern σ) (s : List Char) : Option (List (σ × Span)) :=
  ((pattern.ends s).find? fun reach => reach.rest.isEmpty).map (·.slots)

/-- Several patterns, one after the other. -/
def all : List (Pattern σ) → Pattern σ
  | [] => empty
  | [pattern] => pattern
  | pattern :: rest => seq pattern (all rest)

/-- One of several patterns, the first that fits being preferred. -/
def choice : List (Pattern σ) → Pattern σ
  | [] => char fun _ => false
  | [pattern] => pattern
  | pattern :: rest => alt pattern (choice rest)

def optional (pattern : Pattern σ) : Pattern σ := alt pattern empty

def letters : List Char → Pattern σ
  | [] => empty
  | c :: word => seq (char (· == c)) (letters word)

def word (w : String) : Pattern σ := letters w.toList

def oneOf (words : List String) : Pattern σ := choice (words.map word)

def blanks : Pattern σ := run Text.isBlank

/-- White space, or nothing. -/
def space : Pattern σ := optional blanks

end Pattern

end TeamOrders

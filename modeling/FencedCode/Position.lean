/-!
# Positions and ranges in a text

A `Position` is a line and a column, both counted from one, columns in characters. A position that
was read off a text also carries its byte offset. The order is the reading order of the line and
the column; the offset takes no part in it.

Section 3 of the specification.
-/

namespace FencedCode

/-- A place in a text, with its byte offset when that is known. -/
structure Position where
  line : Nat
  column : Nat
  offset : Option Nat := none
  deriving DecidableEq, Repr, Inhabited

namespace Position

/-- The same line and column without a byte offset. -/
def bare (p : Position) : Position := ⟨p.line, p.column, none⟩

/-- Reading order: lines first, then columns. -/
instance : LE Position :=
  ⟨fun p q ↦ p.line < q.line ∨ (p.line = q.line ∧ p.column ≤ q.column)⟩

/-- Strict reading order. -/
instance : LT Position :=
  ⟨fun p q ↦ p.line < q.line ∨ (p.line = q.line ∧ p.column < q.column)⟩

instance (p q : Position) : Decidable (p ≤ q) :=
  inferInstanceAs (Decidable (p.line < q.line ∨ (p.line = q.line ∧ p.column ≤ q.column)))

instance (p q : Position) : Decidable (p < q) :=
  inferInstanceAs (Decidable (p.line < q.line ∨ (p.line = q.line ∧ p.column < q.column)))

/-- How a position is written in messages: `line:column`. -/
def text (p : Position) : String := toString p.line ++ ":" ++ toString p.column

/-- The order is by line, and within a line by column. -/
theorem le_def {p q : Position} :
    p ≤ q ↔ p.line < q.line ∨ (p.line = q.line ∧ p.column ≤ q.column) := Iff.rfl

/-- The strict order is by line, and within a line by column. -/
theorem lt_def {p q : Position} :
    p < q ↔ p.line < q.line ∨ (p.line = q.line ∧ p.column < q.column) := Iff.rfl

/-- Every position is at most itself. -/
theorem le_refl (p : Position) : p ≤ p := by simp [le_def]

/-- The order of positions is transitive. -/
theorem le_trans {p q r : Position} (h₁ : p ≤ q) (h₂ : q ≤ r) : p ≤ r := by
  simp only [le_def] at *
  omega

/-- The order of positions is total. -/
theorem not_le {p q : Position} : ¬p ≤ q ↔ q < p := by
  simp only [le_def, lt_def]
  omega

/-- What is not before a position is at it or behind it. -/
theorem not_lt {p q : Position} : ¬p < q ↔ q ≤ p := by
  simp only [le_def, lt_def]
  omega

/-- What is before a position is at most it. -/
theorem le_of_lt {p q : Position} (h : p < q) : p ≤ q := by
  simp only [le_def, lt_def] at *
  omega

/-- Before a position that is at most another is before that one. -/
theorem lt_of_lt_of_le {p q r : Position} (h₁ : p < q) (h₂ : q ≤ r) : p < r := by
  simp only [le_def, lt_def] at *
  omega

end Position

/-- A stretch of a text; the end is the place after its last character. -/
structure Range where
  start : Position
  stop : Position
  deriving DecidableEq, Repr, Inhabited

namespace Range

/-- How many lines the end is below the start; zero for a range that ends above its start. -/
def height (r : Range) : Nat := r.stop.line - r.start.line

/-- The empty range at a position. -/
def point (p : Position) : Range := ⟨p, p⟩

end Range

end FencedCode

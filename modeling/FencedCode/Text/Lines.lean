/-!
# Cutting a text into lines

A text is cut at its line feeds, with or without keeping them, and put together again. The laws say
that nothing is lost.
-/

namespace FencedCode.Text

/-- A text cut after each line feed. The last piece holds no line feed and may be empty. -/
def splitLines : List Char → List (List Char)
  | [] => [[]]
  | c :: cs =>
    if c = '\n' then [c] :: splitLines cs
    else
      match splitLines cs with
      | [] => [[c]]
      | l :: ls => (c :: l) :: ls

/-- A text cut at each line feed, the line feeds left out. -/
def splitFeeds : List Char → List (List Char)
  | [] => [[]]
  | c :: cs =>
    if c = '\n' then [] :: splitFeeds cs
    else
      match splitFeeds cs with
      | [] => [[c]]
      | l :: ls => (c :: l) :: ls

/-- Lines put together, each ended by a line feed. -/
def joinLines (ls : List (List Char)) : List Char := ls.flatMap (· ++ ['\n'])

/-- There is always a last line. -/
theorem splitLines_ne_nil (cs : List Char) : splitLines cs ≠ [] := by
  cases cs with
  | nil => simp [splitLines]
  | cons c cs =>
    unfold splitLines
    split
    · simp
    · split <;> simp

/-- Cutting a text after its line feeds loses nothing. -/
theorem flatten_splitLines (cs : List Char) : (splitLines cs).flatten = cs := by
  induction cs with
  | nil => rfl
  | cons c cs ih =>
    unfold splitLines
    split
    · simp [ih]
    · split
      · next h => exact absurd h (splitLines_ne_nil cs)
      · next l ls h =>
        rw [h] at ih
        simpa using ih

/-- Splitting gives at least one part. -/
theorem splitFeeds_ne_nil (cs : List Char) : splitFeeds cs ≠ [] := by
  cases cs with
  | nil => simp [splitFeeds]
  | cons c cs =>
    unfold splitFeeds
    split
    · simp
    · split <;> simp

/-- Each line that is joined ends in a line feed. -/
@[simp] theorem joinLines_cons (l : List Char) (ls : List (List Char)) :
    joinLines (l :: ls) = l ++ '\n' :: joinLines ls := by
  simp [joinLines]

/-- Lines one after the other join one after the other. -/
theorem joinLines_append (ks ls : List (List Char)) :
    joinLines (ks ++ ls) = joinLines ks ++ joinLines ls := by
  simp [joinLines]

end FencedCode.Text

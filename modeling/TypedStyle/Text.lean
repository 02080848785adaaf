set_option autoImplicit false

namespace TypedStyle.Text

def byteLength : List Char → Nat
  | [] => 0
  | c :: cs => c.utf8Size + byteLength cs

/-- What is left after so many bytes, behind the number of bytes that lead into it. A character is
passed with its last byte. -/
def passBytes : Nat → List Char → Nat × List Char
  | _, [] => (0, [])
  | n, c :: cs => if c.utf8Size ≤ n then passBytes (n - c.utf8Size) cs else (n, c :: cs)

@[simp]
theorem byteLength_nil : byteLength [] = 0 := rfl

@[simp]
theorem byteLength_cons (c : Char) (cs : List Char) :
    byteLength (c :: cs) = c.utf8Size + byteLength cs := rfl

@[simp]
theorem byteLength_append (l r : List Char) :
    byteLength (l ++ r) = byteLength l + byteLength r := by
  induction l with
  | nil => simp
  | cons c cs ih => simp [ih, Nat.add_assoc]

theorem byteLength_pos {cs : List Char} (h : cs ≠ []) : 0 < byteLength cs := by
  cases cs with
  | nil => exact absurd rfl h
  | cons c cs => have := c.utf8Size_pos; simp; omega

@[simp]
theorem passBytes_zero (cs : List Char) : passBytes 0 cs = (0, cs) := by
  cases cs with
  | nil => rfl
  | cons c cs =>
    have := c.utf8Size_pos
    rw [passBytes, if_neg (by omega)]

theorem passBytes_append (l r : List Char) (n : Nat) :
    passBytes (byteLength l + n) (l ++ r) = passBytes n r := by
  induction l with
  | nil => simp
  | cons c cs ih =>
    rw [List.cons_append, passBytes, byteLength_cons, if_pos (by omega), ← ih]
    congr 1
    omega

theorem length_passBytes_le (n : Nat) (cs : List Char) :
    (passBytes n cs).2.length ≤ cs.length := by
  induction cs generalizing n with
  | nil => simp [passBytes]
  | cons c cs ih =>
    rw [passBytes]
    split
    · exact Nat.le_succ_of_le (ih _)
    · exact Nat.le_refl _

/-- Each line keeps its newline, which only the last line may lack. -/
def lines : List Char → List (List Char)
  | [] => []
  | c :: cs =>
    if c = '\n' then [c] :: lines cs
    else match lines cs with
      | [] => [[c]]
      | line :: rest => (c :: line) :: rest

theorem flatten_lines (cs : List Char) : (lines cs).flatten = cs := by
  induction cs with
  | nil => rfl
  | cons c cs ih =>
    rw [lines]
    split
    · simp [ih]
    · split <;> simp_all

/-- A line with its one-based number and a place in it, in bytes from its start. -/
structure Line where
  number : Nat
  text : String
  offset : Nat
  deriving Repr, DecidableEq

/-- The place just after the text belongs to the last line, before its newline. -/
def locate (number : Nat) : List (List Char) → Nat → Option Line
  | [], _ => none
  | line :: rest, position =>
    if position < byteLength line then some ⟨number, String.ofList line, position⟩
    else if rest.isEmpty && position == byteLength line then
      some ⟨number, String.ofList line, byteLength (line.filter (· ≠ '\n'))⟩
    else locate (number + 1) rest (position - byteLength line)

/-- No line holds a position beyond the end, and an empty source has no lines. -/
def lineAt? (source : String) (position : Nat) : Option Line :=
  locate 1 (lines source.toList) position

structure CodeRange where
  first : Nat
  last : Nat
  deriving Repr, DecidableEq

def CodeRange.contains (range : CodeRange) (c : Char) : Bool :=
  range.first ≤ c.toNat && c.toNat ≤ range.last

def inRanges (ranges : List CodeRange) (c : Char) : Bool :=
  ranges.any (·.contains c)

theorem inRanges_iff {ranges : List CodeRange} {c : Char} :
    inRanges ranges c = true ↔
      ∃ range ∈ ranges, range.first ≤ c.toNat ∧ c.toNat ≤ range.last := by
  simp [inRanges, CodeRange.contains]

/-- The code points with the White_Space property. -/
def blankRanges : List CodeRange :=
  [⟨0x09, 0x0D⟩, ⟨0x20, 0x20⟩, ⟨0x85, 0x85⟩, ⟨0xA0, 0xA0⟩, ⟨0x1680, 0x1680⟩,
   ⟨0x2000, 0x200A⟩, ⟨0x2028, 0x2029⟩, ⟨0x202F, 0x202F⟩, ⟨0x205F, 0x205F⟩, ⟨0x3000, 0x3000⟩]

def isBlank (c : Char) : Bool :=
  inRanges blankRanges c

def trimEnd (cs : List Char) : List Char :=
  (cs.reverse.dropWhile isBlank).reverse

def natural? (cs : List Char) : Option Nat :=
  if !cs.isEmpty && cs.all Char.isDigit then some (Nat.ofDigitChars 10 cs 0) else none

def unsigned? : List Char → Option Nat
  | '+' :: digits => natural? digits
  | digits => natural? digits

def signed? : List Char → Option Int
  | '-' :: digits => (natural? digits).map fun n => -(n : Int)
  | text => (unsigned? text).map fun n => (n : Int)

def dropEnding (ending text : List Char) : List Char :=
  if ending.isSuffixOf text then text.take (text.length - ending.length) else text

end TypedStyle.Text

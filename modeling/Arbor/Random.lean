/-!
# Random numbers

The random words of a seeded source are the ChaCha keystream with twelve rounds,
a 64-bit block counter that starts at zero and no nonce.  The key is expanded
from a 64-bit seed by a linear congruential generator whose states are permuted
before they are used.

A block is a square of words.  One half of a double round mixes its columns, the
other half its diagonals; the diagonals become columns when the rows are turned
against each other.

A source of draws is an endless stream of words together with the number of
words already taken.  The stream itself never changes, so what a computation
draws is determined by where in the stream it starts.
-/

namespace Arbor

/-! ## The keystream of a seed -/

/-- The words of a keystream, by position. -/
abbrev Keystream := Nat → UInt32

namespace Keystream

/-- Rotate the bits of a word toward the high end, by less than the word size. -/
def rotateLeft (word amount : UInt32) : UInt32 :=
  word <<< amount ||| word >>> (32 - amount)

/-- Rotate the bits of a word toward the low end. -/
def rotateRight (word amount : UInt32) : UInt32 :=
  word >>> amount ||| word <<< (32 - amount)

/-- A row of the square of words. -/
structure Row where
  first : UInt32
  second : UInt32
  third : UInt32
  fourth : UInt32
  deriving DecidableEq, Inhabited, Repr

namespace Row

/-- Combine the words of two rows place by place. -/
@[inline] def zipWith (combine : UInt32 → UInt32 → UInt32) (left right : Row) : Row :=
  ⟨combine left.first right.first, combine left.second right.second,
   combine left.third right.third, combine left.fourth right.fourth⟩

/-- The sums of two rows, modulo the word size. -/
def add (left right : Row) : Row := left.zipWith (· + ·) right

/-- The sums modulo two of the bits of two rows, rotated to the left. -/
def mixRotate (left right : Row) (amount : UInt32) : Row :=
  left.zipWith (fun leftWord rightWord => rotateLeft (leftWord ^^^ rightWord) amount) right

/-- Move every word of a row one place to the left, the first one to the end. -/
def turn (row : Row) : Row := ⟨row.second, row.third, row.fourth, row.first⟩

end Row

/-- The square of words on which the rounds work. -/
structure Block where
  top : Row
  upper : Row
  lower : Row
  bottom : Row
  deriving DecidableEq, Inhabited, Repr

namespace Block

/-- The sums of the words of two blocks, modulo the word size. -/
def add (left right : Block) : Block :=
  ⟨left.top.add right.top, left.upper.add right.upper,
   left.lower.add right.lower, left.bottom.add right.bottom⟩

/-- Four quarter rounds at once, one on each column. -/
def mixColumns (block : Block) : Block :=
  let top := block.top.add block.upper
  let bottom := block.bottom.mixRotate top 16
  let lower := block.lower.add bottom
  let upper := block.upper.mixRotate lower 12
  let top := top.add upper
  let bottom := bottom.mixRotate top 8
  let lower := lower.add bottom
  let upper := upper.mixRotate lower 7
  ⟨top, upper, lower, bottom⟩

/-- Turn the rows so that the diagonals become columns. -/
def toDiagonals (block : Block) : Block :=
  ⟨block.top, block.upper.turn, block.lower.turn.turn, block.bottom.turn.turn.turn⟩

/-- Turn the rows so that the columns become diagonals again. -/
def ofDiagonals (block : Block) : Block :=
  ⟨block.top, block.upper.turn.turn.turn, block.lower.turn.turn, block.bottom.turn⟩

/-- A round on the columns and one on the diagonals. -/
def doubleRound (block : Block) : Block :=
  block.mixColumns.toDiagonals.mixColumns.ofDiagonals

/-- Several double rounds. -/
def doubleRounds (block : Block) : Nat → Block
  | 0 => block
  | count + 1 => block.doubleRound.doubleRounds count

/-- Twelve rounds, with the initial block added to their result. -/
def scramble (block : Block) : Block :=
  (block.doubleRounds 6).add block

/-- The word at a position, counted along the rows. -/
def word (block : Block) (position : Nat) : UInt32 :=
  let row :=
    match position / 4 with
    | 0 => block.top
    | 1 => block.upper
    | 2 => block.lower
    | _ => block.bottom
  match position % 4 with
  | 0 => row.first
  | 1 => row.second
  | 2 => row.third
  | _ => row.fourth

@[simp] theorem ofDiagonals_toDiagonals (block : Block) :
    block.toDiagonals.ofDiagonals = block := rfl

end Block

/-- The two rows of a 256-bit key. -/
structure Key where
  upper : Row
  lower : Row
  deriving DecidableEq, Inhabited, Repr

namespace Key

/-- The state of the key expansion that follows a given one. -/
def nextState (state : UInt64) : UInt64 :=
  state * 6364136223846793005 + 11634580027462260723

/-- The permuted word of one state of the key expansion. -/
def stateWord (state : UInt64) : UInt32 :=
  rotateRight (((state >>> 18) ^^^ state) >>> 27).toUInt32 (state >>> 59).toUInt32

/-- The key words of the first states after the given one. -/
def stateRow (state : UInt64) : Row × UInt64 :=
  let first := nextState state
  let second := nextState first
  let third := nextState second
  let fourth := nextState third
  (⟨stateWord first, stateWord second, stateWord third, stateWord fourth⟩, fourth)

/-- The key that a seed is expanded to. -/
def ofSeed (seed : UInt64) : Key :=
  let (upper, state) := stateRow seed
  ⟨upper, (stateRow state).1⟩

end Key

/-- The block of a key with the given number. -/
def block (key : Key) (number : Nat) : Block :=
  let counter := number.toUInt64
  Block.scramble
    ⟨⟨0x61707865, 0x3320646e, 0x79622d32, 0x6b206574⟩, key.upper, key.lower,
     ⟨counter.toUInt32, (counter >>> 32).toUInt32, 0, 0⟩⟩

/-- The keystream of a key: the words of its blocks, one block after the other. -/
def ofKey (key : Key) : Keystream :=
  fun position => (block key (position / 16)).word (position % 16)

/-- The keystream of a seed. -/
def ofSeed (seed : UInt64) : Keystream :=
  ofKey (Key.ofSeed seed)

/-- The stream that repeats a list of words for ever; it is zero throughout
where the list is empty. -/
def cycle (words : List UInt32) : Keystream :=
  fun position => words[position % words.length]?.getD 0

end Keystream

/-! ## Drawing random numbers -/

/-- A stream of random words and how many of them have been taken. -/
structure Draws where
  stream : Keystream
  taken : Nat

/-- A computation that may draw random numbers. -/
abbrev Drawing (α : Type) : Type := StateM Draws α

namespace Draws

/-- The source of a stream of which nothing has been taken. -/
def start (stream : Keystream) : Draws := ⟨stream, 0⟩

/-- The source of a seed. -/
def ofSeed (seed : UInt64) : Draws := start (Keystream.ofSeed seed)

instance : Inhabited Draws := ⟨ofSeed 0⟩

/-- The word that is taken next. -/
def peek (draws : Draws) : UInt32 := draws.stream draws.taken

/-- The source after one further word has been taken. -/
def skip (draws : Draws) : Draws := { draws with taken := draws.taken + 1 }

/-- The source after some further words have been taken. -/
def advance (draws : Draws) (count : Nat) : Draws :=
  { draws with taken := draws.taken + count }

@[simp] theorem skip_stream (draws : Draws) : draws.skip.stream = draws.stream := rfl

@[simp] theorem skip_taken (draws : Draws) : draws.skip.taken = draws.taken + 1 := rfl

theorem advance_add (draws : Draws) (first second : Nat) :
    draws.advance (first + second) = (draws.advance first).advance second := by
  simp only [advance, Nat.add_assoc]

end Draws

namespace Drawing

/-- Draw a word. -/
def word : Drawing UInt32 :=
  fun draws => (draws.peek, draws.skip)

/-- The number in the unit interval that the 24 high bits of a word stand for. -/
def unitOfWord (word : UInt32) : Float32 :=
  (word >>> 8).toFloat32 * 5.9604644775390625e-8

/-- Draw a number that is at least zero and below one.  It takes one word. -/
def unit : Drawing Float32 :=
  fun draws => (unitOfWord draws.peek, draws.skip)

/-- Draw the same kind of item a number of times, first item first. -/
def replicate {α : Type} (count : Nat) (item : Drawing α) : Drawing (List α) :=
  match count with
  | 0 => pure []
  | count + 1 => do
      let head ← item
      let tail ← replicate count item
      pure (head :: tail)

@[simp] theorem unit_apply (draws : Draws) :
    unit draws = (unitOfWord draws.peek, draws.skip) := rfl

@[simp] theorem pure_apply {α : Type} (value : α) (draws : Draws) :
    (pure value : Drawing α) draws = (value, draws) := rfl

/-- The second computation draws from where the first one has stopped. -/
@[simp] theorem bind_apply {α β : Type} (first : Drawing α) (second : α → Drawing β)
    (draws : Draws) :
    (first >>= second) draws = second (first draws).1 (first draws).2 := rfl

@[simp] theorem map_apply {α β : Type} (image : α → β) (computation : Drawing α)
    (draws : Draws) :
    (image <$> computation) draws = (image (computation draws).1, (computation draws).2) := rfl

@[simp] theorem length_replicate {α : Type} (count : Nat) (item : Drawing α) (draws : Draws) :
    (replicate count item draws).1.length = count := by
  induction count generalizing draws with
  | zero => rfl
  | succ count ih => simp [replicate, ih]

end Drawing

end Arbor

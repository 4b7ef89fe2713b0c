import Arbor.Production

/-!
# One generation of a derivation

A generation reads a word from left to right and writes the next one.  Where a
production fires, its successor is written and its predecessor is passed over;
elsewhere a symbol is copied.  While it reads, a generation counts the branches
that it has written, so that it can tell where those of a successor stand among
all branches of the new word.
-/

namespace Arbor

/-- New branches enter the list of branches: `count` of them, so that the first
one has the index `position`. -/
structure Budding where
  count : Nat
  position : Nat
  deriving DecidableEq, Inhabited, Repr

/-- What one generation makes of a word. -/
structure Generation where
  word : Word
  /-- The groups of new branches, in the order in which they enter. -/
  buddings : List Budding
  /-- The number of predecessors that were replaced. -/
  substitutions : Nat
  deriving DecidableEq, Inhabited, Repr

/-- What a generation has written when it has read the beginning of a word. -/
structure Scan where
  /-- The beginning of the new word. -/
  output : Array Symbol
  /-- The number of branches that the output begins. -/
  emitted : Nat
  /-- The groups of new branches among them. -/
  buddings : Array Budding
  /-- The number of predecessors that were replaced. -/
  substitutions : Nat
  deriving DecidableEq, Inhabited, Repr

namespace Scan

/-- Nothing has been read. -/
def start : Scan := ⟨#[], 0, #[], 0⟩

/-- Copy a symbol. -/
def copy (scan : Scan) (symbol : Symbol) : Scan :=
  { scan with
    output := scan.output.push symbol
    emitted := if symbol = '[' then scan.emitted + 1 else scan.emitted }

/-- Write the successor of a production in place of its predecessor. -/
def replace (scan : Scan) (production : Production) : Scan where
  output := scan.output ++ production.successor
  emitted := scan.emitted + production.branchCount
  buddings :=
    if 0 < production.branchCount then
      scan.buddings.push ⟨production.branchCount, scan.emitted⟩
    else
      scan.buddings
  substitutions := scan.substitutions + 1

/-- Read the rest of a word.  The first `covered` symbols belong to the
predecessor that was replaced last. -/
def read (productions : List Production) (scan : Scan) (covered : Nat) : Word → Drawing Scan
  | [] => pure scan
  | symbol :: rest =>
      match covered with
      | covered + 1 => scan.read productions covered rest
      | 0 =>
          match Production.candidate? productions (symbol :: rest) with
          | none => (scan.copy symbol).read productions 0 rest
          | some production => do
              let fired ← production.fires
              if fired then
                (scan.replace production).read productions (production.predecessor.length - 1) rest
              else
                (scan.copy symbol).read productions 0 rest

/-- What has been written, as a generation. -/
def generation (scan : Scan) : Generation :=
  ⟨scan.output.toList, scan.buddings.toList, scan.substitutions⟩

end Scan

namespace Generation

/-- The number of branches that the successors begin, over all groups. -/
def newBranches (generation : Generation) : Nat :=
  generation.buddings.foldr (fun budding total => budding.count + total) 0

/-- Read a whole word. -/
def next (productions : List Production) (word : Word) : Drawing Generation := do
  let scan ← Scan.start.read productions 0 word
  pure scan.generation

end Generation

end Arbor

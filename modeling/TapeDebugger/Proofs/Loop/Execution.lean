import TapeDebugger.Proofs.Loop.Block

/-!
# Executing blocks

A block is executed on a world: the tape as seen from its current cell, the
input that is left, and what was written.  A loop repeats its body while the
current cell is not 0.  To move off an end of the tape ends the whole execution.
An execution that never ends has no derivation.
-/

namespace TapeDebugger

/-! ## Worlds -/

inductive Edge where
  | left
  | right
  deriving DecidableEq, Repr

inductive Ending where
  | finished
  | ranOff (edge : Edge)
  deriving DecidableEq, Repr

/-- A tape around its current cell, nearest cells first, with the input and what was written. -/
structure World where
  left : List Nat := []
  current : Nat := 0
  right : List Nat := []
  input : List UInt8 := []
  written : List UInt8 := []
  deriving DecidableEq, Repr

namespace World

def fresh (length : Nat) (input : List UInt8) : World :=
  { right := List.replicate (length - 1) 0, input }

def cells (world : World) : List Nat :=
  world.left.reverse ++ world.current :: world.right

def pointer (world : World) : Nat :=
  world.left.length

end World

/-! ## Actions -/

namespace Action

/-- The residue that a cell of a size holds of an integer. -/
def residue (modulus : Nat) (value : Int) : Nat :=
  (value % modulus).toNat

/-- What an action does to a world, unless it would leave the tape. -/
def perform (modulus : Nat) (atEnd : Int) (action : Action) (world : World) :
    Except Edge World :=
  match action with
  | moveRight =>
      match world.right with
      | [] => .error .right
      | next :: right =>
          .ok { world with left := world.current :: world.left, current := next, right }
  | moveLeft =>
      match world.left with
      | [] => .error .left
      | next :: left =>
          .ok { world with left, current := next, right := world.current :: world.right }
  | increment => .ok { world with current := residue modulus (world.current + 1) }
  | decrement => .ok { world with current := residue modulus (world.current - 1) }
  | output => .ok { world with written := world.written ++ [.ofNat (world.current % 256)] }
  | input =>
      match world.input with
      | [] => .ok { world with current := residue modulus atEnd }
      | byte :: rest => .ok { world with current := byte.toNat, input := rest }

end Action

/-! ## Blocks -/

namespace Block

/-- Executing a block in a world comes to an ending in another world. -/
inductive Executes (modulus : Nat) (atEnd : Int) : Block → World → Ending → World → Prop where
  | done (world : World) : Executes modulus atEnd .done world .finished world
  | act {action : Action} {rest : Block} {world next final : World} {ending : Ending}
      (performed : action.perform modulus atEnd world = .ok next)
      (continued : Executes modulus atEnd rest next ending final) :
      Executes modulus atEnd (.act action rest) world ending final
  | edge {action : Action} {rest : Block} {world : World} {edge : Edge}
      (refused : action.perform modulus atEnd world = .error edge) :
      Executes modulus atEnd (.act action rest) world (.ranOff edge) world
  | skip {body rest : Block} {world final : World} {ending : Ending}
      (zero : world.current = 0) (continued : Executes modulus atEnd rest world ending final) :
      Executes modulus atEnd (.loop body rest) world ending final
  | again {body rest : Block} {world next final : World} {ending : Ending}
      (nonzero : world.current ≠ 0) (once : Executes modulus atEnd body world .finished next)
      (continued : Executes modulus atEnd (.loop body rest) next ending final) :
      Executes modulus atEnd (.loop body rest) world ending final
  | inside {body rest : Block} {world final : World} {edge : Edge}
      (nonzero : world.current ≠ 0)
      (once : Executes modulus atEnd body world (.ranOff edge) final) :
      Executes modulus atEnd (.loop body rest) world (.ranOff edge) final

end Block

end TapeDebugger

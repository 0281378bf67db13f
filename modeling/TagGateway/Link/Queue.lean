/-!
Bounded queues between the parts of a gateway. A queue whose receiver is gone takes nothing more,
and what was in it is lost.
-/

set_option autoImplicit false

namespace TagGateway

structure Queue (α : Type) where
  capacity : Nat
  items : List α := []
  isOpen : Bool := true

inductive Offer where
  | taken
  | full
  | closed
  deriving DecidableEq, Repr

namespace Queue

variable {α : Type}

/-- Puts an item in if there is room at once. -/
def offer (q : Queue α) (a : α) : Offer × Queue α :=
  if !q.isOpen then (.closed, q)
  else if q.items.length < q.capacity then (.taken, { q with items := q.items ++ [a] })
  else (.full, q)

/-- Puts an item in, waiting for room. -/
def put (q : Queue α) (a : α) : Queue α :=
  if q.isOpen then { q with items := q.items ++ [a] } else q

def take? (q : Queue α) : Option α × Queue α :=
  match q.items with
  | [] => (none, q)
  | a :: rest => (some a, { q with items := rest })

def drain (q : Queue α) : List α × Queue α := (q.items, { q with items := [] })

def close (q : Queue α) : Queue α := { q with items := [], isOpen := false }

end Queue

end TagGateway

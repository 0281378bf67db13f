/-!
How messages reach those who handle them. They enter a queue in the order of the link; a dispatcher
takes them from there, handles itself what concerns no single reader, and gives the messages of a
reader to a worker that is always the same for that reader. When a shutdown is asked for, what has
entered is still dispatched. Which part moves next is up to a schedule.
-/

set_option autoImplicit false

namespace TagGateway

inductive DispatchPhase where
  | running
  | draining
  | returned
  deriving DecidableEq, Repr

inductive Handler where
  | dispatcher
  | worker (index : Nat)
  deriving DecidableEq, Repr

structure Dispatch (μ : Type) where
  messages : List μ
  entered : Nat := 0
  inbound : List μ := []
  inboundCapacity : Nat
  queues : List (List μ) := []
  queueCapacity : Nat
  workersGone : Bool := false
  shutdown : Bool := false
  phase : DispatchPhase := .running
  handled : List (Handler × μ) := []

inductive Move where
  /-- The next message enters. It may do so after the dispatcher has looked for the last time, and
  is then left where it is. -/
  | arrive
  | hangUp
  | raise
  | notice
  | next
  | finish
  | work (index : Nat)
  deriving DecidableEq, Repr

namespace Dispatch

variable {μ : Type}

/-- Whether a queue takes one more. Here a message leaves its queue when it has been handled or
handed on; until then whoever takes it holds it beyond the capacity. -/
def hasRoom (capacity : Nat) (queue : List μ) : Bool := queue.length ≤ capacity

def workerOf (assign : String → Nat) (workers : Nat) (device : String) : Nat :=
  assign device % workers

def returnNow (d : Dispatch μ) : Dispatch μ := { d with phase := .returned, shutdown := true }

def route (device? : μ → Option String) (assign : String → Nat) (d : Dispatch μ) (m : μ) :
    Option (Dispatch μ) :=
  match if d.queues.isEmpty then none else device? m with
  | none => some { d with handled := d.handled ++ [(.dispatcher, m)] }
  | some device =>
    let index := workerOf assign d.queues.length device
    if d.workersGone then some d.returnNow
    else if hasRoom d.queueCapacity (d.queues.getD index []) then
      some { d with queues := d.queues.modify index (· ++ [m]) }
    else none

def step (device? : μ → Option String) (assign : String → Nat) (d : Dispatch μ) :
    Move → Option (Dispatch μ)
  | .arrive =>
    if hasRoom d.inboundCapacity d.inbound then
      d.messages[d.entered]?.map fun m =>
        { d with inbound := d.inbound ++ [m], entered := d.entered + 1 }
    else none
  | .hangUp => if d.shutdown then some { d with messages := d.messages.take d.entered } else none
  | .raise => some { d with shutdown := true }
  | .notice =>
    if d.phase = .running ∧ d.shutdown then some { d with phase := .draining } else none
  | .next =>
    if d.phase = .returned then none
    else
      match d.inbound with
      | [] => none
      | m :: rest => route device? assign { d with inbound := rest } m
  | .finish =>
    if d.inbound.isEmpty
        ∧ (d.phase = .draining ∨ d.phase = .running ∧ d.messages.length ≤ d.entered) then
      some d.returnNow
    else none
  | .work index =>
    match d.queues[index]? with
    | some (m :: rest) =>
      some { d with
        queues := d.queues.set index rest
        handled := d.handled ++ [(.worker index, m)] }
    | _ => none

/-- Follows a schedule. A move that is not possible when its turn comes is left out. -/
def run (device? : μ → Option String) (assign : String → Nat) (d : Dispatch μ)
    (schedule : List Move) : Dispatch μ :=
  schedule.foldl (fun d move => (d.step device? assign move).getD d) d

@[simp] theorem run_cons (device? : μ → Option String) (assign : String → Nat) (d : Dispatch μ)
    (move : Move) (rest : List Move) :
    d.run device? assign (move :: rest)
      = ((d.step device? assign move).getD d).run device? assign rest := rfl

def inOrder (count : Nat) : List Move :=
  List.replicate count .arrive ++ .notice :: List.replicate count .next ++ [.finish]

end Dispatch

end TagGateway

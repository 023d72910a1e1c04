import MappingSweep.Row.Funnel

/-!
# Many senders

Any number of senders hand their rows to one funnel, each in an order of its own, while the writer
takes rows in between.  What was sent is remembered in the order in which it was sent.  A row that
the funnel refuses is not sent again.
-/

namespace MappingSweep

/-- Who does something next: a sender, by its number, or the writer. -/
inductive FunnelEvent where
  | send (sender : Nat)
  | take
deriving DecidableEq, Repr

structure Traffic where
  funnel : Funnel
  files : FileSystem
  /-- The rows that each sender has still to send. -/
  waiting : List (List Row)
  /-- All rows that were sent, each with its sender. -/
  sent : List (Nat × Row) := []

namespace Traffic

def send (c : Traffic) (sender : Nat) : Traffic :=
  match c.waiting[sender]? with
  | some (row :: rest) =>
    { c with
      funnel := (c.funnel.send row).toOption.getD c.funnel
      waiting := c.waiting.set sender rest
      sent := c.sent ++ [(sender, row)] }
  | _ => c

def step (c : Traffic) : FunnelEvent → Traffic
  | .send sender => c.send sender
  | .take =>
    let (funnel, files) := c.funnel.take c.files
    { c with funnel, files }

def run (c : Traffic) (events : List FunnelEvent) : Traffic :=
  events.foldl step c

def isDone (c : Traffic) : Bool :=
  c.waiting.all List.isEmpty

def rows (c : Traffic) : List Row :=
  c.sent.map (·.2)

def rowsOf (c : Traffic) (sender : Nat) : List Row :=
  (c.sent.filter (·.1 = sender)).map (·.2)

def start (log : RowLog) (files : FileSystem) (senders : List (List Row)) : Traffic where
  funnel := { log }
  files
  waiting := senders

end Traffic
end MappingSweep

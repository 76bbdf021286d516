import BtSniffer.Lib.KeyMap
import BtSniffer.Address

/-!
# TCP permits per IP

Reference model of `src/collection/tcp_limits.rs` as a step function.  A task is in one of the phases
of `acquire_for_ip` and of the drop of what it holds; a step is one critical section, one operation of
the semaphore, or one release of a reference.

* `Arc::strong_count` is the number of handles that the tasks own (`strongCount`), and `Weak::upgrade`
  succeeds exactly if there is one.
* A semaphore is that of tokio: a released permit goes to the first waiter, and is free only if there
  is none.
* A waiting future that is dropped leaves the queue, or returns the permit it was given, before the
  ticket is dropped.
-/

set_option autoImplicit false

namespace BtSniffer.TcpLimits

open Relational

/-- Where a task is. -/
inductive Phase where
  /-- After the critical section of `acquire_for_ip`, before the semaphore is asked. -/
  | registered
  /-- In the queue of the semaphore. -/
  | waiting
  /-- The semaphore gave its permit to the waiting future. -/
  | granted
  /-- With a `ConnectionPermit`. -/
  | holding
  /-- The permit or the waiting future is dropped, the ticket not yet. -/
  | returned
  /-- After the critical section of `TcpTicket::drop`, before the ticket's handle is released. -/
  | checked
  deriving DecidableEq, Repr

/-- The handles of the semaphore that a task owns: the ticket's, and that of the waiting future or of
the permit. -/
def Phase.handles : Phase → Nat
  | .waiting | .granted | .holding => 2
  | .registered | .returned | .checked => 1

/-- The task has the permit of its semaphore. -/
def Phase.hasPermit : Phase → Bool
  | .granted | .holding => true
  | _ => false

/-- `TcpTicket`, with the task it belongs to. -/
structure Ticket where
  task : Nat
  ip : IpAddr
  semaphore : Nat
  phase : Phase
  deriving DecidableEq

/-- `Semaphore`. -/
structure Semaphore where
  permits : Nat
  queue : List Nat
  deriving DecidableEq, Repr

/-- `TcpState`, with the semaphores and the tasks. -/
structure TcpState where
  ips : Table (IpAddr × Nat) Prod.fst
  tickets : Table Ticket Ticket.task
  semaphores : Nat → Semaphore
  created : Nat

/-- `TcpLimits::default`. -/
def TcpState.default : TcpState := ⟨.empty, .empty, fun _ => ⟨1, []⟩, 0⟩

/-- `tracked_tcp_ips`. -/
def TcpState.trackedTcpIps (s : TcpState) : Nat := s.ips.rows.length

/-- `Arc::strong_count`. -/
def TcpState.strongCount (s : TcpState) (semaphore : Nat) : Nat :=
  (s.tickets.rows.map (fun t => if t.semaphore = semaphore then t.phase.handles else 0)).sum

/-- A task goes on. -/
def TcpState.setPhase (s : TcpState) (task : Nat) (phase : Phase) : TcpState :=
  { s with
    tickets := s.tickets.update (fun t => decide (t.task = task)) (fun t => { t with phase })
      (fun _ => rfl) }

/-- A semaphore changes. -/
def TcpState.setSemaphore (s : TcpState) (semaphore : Nat) (value : Semaphore) : TcpState :=
  { s with semaphores := Function.update s.semaphores semaphore value }

/-- The critical section of `acquire_for_ip`. -/
def TcpState.register (s : TcpState) (task : Nat) (ip : IpAddr) : TcpState :=
  match (s.ips.get? ip).filter (fun entry => decide (0 < s.strongCount entry.2)) with
  | some entry => { s with tickets := s.tickets.insert ⟨task, ip, entry.2, .registered⟩ }
  | none =>
    { ips := s.ips.insert (ip, s.created)
      tickets := s.tickets.insert ⟨task, ip, s.created, .registered⟩
      semaphores := Function.update s.semaphores s.created ⟨1, []⟩
      created := s.created + 1 }

/-- The first poll of `acquire_owned`. -/
def TcpState.request (s : TcpState) (t : Ticket) : TcpState :=
  let value := s.semaphores t.semaphore
  if 0 < value.permits then
    (s.setSemaphore t.semaphore { value with permits := value.permits - 1 }).setPhase t.task .holding
  else
    (s.setSemaphore t.semaphore { value with queue := value.queue ++ [t.task] }).setPhase t.task
      .waiting

/-- A permit comes back to a semaphore. -/
def TcpState.addPermit (s : TcpState) (semaphore : Nat) : TcpState :=
  let value := s.semaphores semaphore
  match value.queue with
  | [] => s.setSemaphore semaphore { value with permits := value.permits + 1 }
  | next :: rest =>
    (s.setSemaphore semaphore { value with queue := rest }).setPhase next .granted

/-- A waiting future leaves the queue. -/
def TcpState.leaveQueue (s : TcpState) (t : Ticket) : TcpState :=
  let value := s.semaphores t.semaphore
  s.setSemaphore t.semaphore { value with queue := value.queue.filter (fun id => id ≠ t.task) }

/-- The critical section of `TcpTicket::drop`. -/
def TcpState.check (s : TcpState) (t : Ticket) : TcpState :=
  if s.strongCount t.semaphore = 1 then { s with ips := s.ips.erase t.ip } else s

/-- The steps. -/
inductive Action where
  /-- `acquire_for_ip` up to the end of its critical section. -/
  | acquire (task : Nat) (ip : IpAddr)
  /-- The first poll of `acquire_owned`. -/
  | request (task : Nat)
  /-- The future finds the permit it was given. -/
  | poll (task : Nat)
  /-- A waiting future is dropped. -/
  | cancel (task : Nat)
  /-- The permit of a `ConnectionPermit` is returned with its handle. -/
  | giveBack (task : Nat)
  /-- The critical section of `TcpTicket::drop`. -/
  | check (task : Nat)
  /-- The ticket's handle is released. -/
  | release (task : Nat)
  deriving DecidableEq

/-- A step of a task from its phase. -/
def TcpState.stepTicket (s : TcpState) (t : Ticket) : Action → Option TcpState
  | .acquire _ _ => none
  | .request _ => if t.phase = .registered then some (s.request t) else none
  | .poll _ => if t.phase = .granted then some (s.setPhase t.task .holding) else none
  | .cancel _ =>
    if t.phase = .waiting then some ((s.leaveQueue t).setPhase t.task .returned)
    else if t.phase = .granted then some ((s.setPhase t.task .returned).addPermit t.semaphore)
    else none
  | .giveBack _ =>
    if t.phase = .holding then some ((s.setPhase t.task .returned).addPermit t.semaphore) else none
  | .check _ => if t.phase = .returned then some ((s.check t).setPhase t.task .checked) else none
  | .release _ => if t.phase = .checked then some { s with tickets := s.tickets.erase t.task } else none

/-- The task of a step. -/
def Action.task : Action → Nat
  | .acquire task _ | .request task | .poll task | .cancel task | .giveBack task | .check task
  | .release task => task

/-- One step. -/
def TcpState.step (s : TcpState) (a : Action) : Option TcpState :=
  match s.tickets.get? a.task, a with
  | none, .acquire task ip => some (s.register task ip)
  | none, _ => none
  | some t, a => s.stepTicket t a

end BtSniffer.TcpLimits

import Rauha.Library.Transition

/-!
# Attached terminals

A client that is attached to a container talks to the shim over a socket that does not block.  One
thread relays: it polls the terminal and the socket, hands what the terminal wrote to the client,
and what the client wrote to the terminal.  Any error of a call ends the relay.

`relay_run` says what the client has: always the beginning of the output, and, where no call would
have to wait (`Calm`), all of it when the terminal has closed.  A client that reads slowly is taken
for one that has gone (`full_socket_ends_relay`).
-/

namespace Rauha.Attach

open Transition List

inductive Errno where
  | EAGAIN
  /-- The other side is gone: `EPIPE`, `ECONNRESET`. -/
  | EPIPE
  deriving DecidableEq, Repr

/-- What a write returns: how many bytes it took, or an error. -/
abbrev Written := Except Errno ℕ

/-- What went out, and how it ended.  A write for which no answer is given takes all. -/
def writeAllFd : List Written → List UInt8 → List UInt8 × Option Errno
  | [], data => (data, none)
  | .ok n :: more, data =>
    if data = [] then ([], none)
    else (data.take n ++ (writeAllFd more (data.drop n)).1, (writeAllFd more (data.drop n)).2)
  | .error e :: _, data => if data = [] then ([], none) else ([], some e)

/-- Why the relay ended. -/
inductive End where
  | PtyClosed
  | ClientClosed
  /-- A call on the socket of the client failed. -/
  | Client (e : Errno)
  | PollFailed
  deriving DecidableEq, Repr

/-- The client has gone. -/
def End.disconnected : End → Bool
  | .ClientClosed | .Client .EPIPE => true
  | _ => false

/-- The output that the shim has not read, what the client has received, and the end. -/
structure Relay where
  pending : List UInt8
  received : List UInt8
  ended : Option End
  deriving DecidableEq, Repr

/-- A read of the terminal returns some bytes, at least one and at most 4096 of those there are,
    which are written at once. -/
structure Read where
  more : Fin 4096
  writes : List Written

structure Revents where
  /-- `POLLIN` -/
  input : Bool
  /-- `POLLHUP` or `POLLERR` -/
  hangup : Bool

inductive Poll where
  | Timeout
  | Interrupted
  | Failed
  | Ready (pty client : Revents)

/-- What a read of the socket returns: input, which the terminal takes or refuses, nothing, or an
    error. -/
inductive Input where
  | Taken
  | Refused
  | Eof
  | Failed (e : Errno)
  deriving DecidableEq

/-- The answers to the calls of one round. -/
structure Round where
  poll : Poll
  read : Read
  /-- The reads after the terminal has hung up; from then on, all the rest is read and written. -/
  drain : List Read
  input : Input

namespace Relay

variable (self : Relay)

/-- The terminal reads as closed once its output has been read. -/
def relayPty (read : Read) : Relay :=
  if self.pending = [] then { self with ended := some .PtyClosed }
  else
    { pending := self.pending.drop (read.more + 1)
      received := self.received ++ (writeAllFd read.writes (self.pending.take (read.more + 1))).1
      ended := (writeAllFd read.writes (self.pending.take (read.more + 1))).2.map .Client }

def drain (self : Relay) : List Read → Relay
  | [] => ⟨[], self.received ++ self.pending, some .PtyClosed⟩
  | read :: reads =>
    if (self.relayPty read).ended = none then (self.relayPty read).drain reads
    else self.relayPty read

def relayClient (client : Revents) (input : Input) : Option End :=
  match client.input, input with
  | true, .Eof => some .ClientClosed
  | true, .Failed e => some (.Client e)
  | true, .Refused => some .PtyClosed
  | _, _ => if client.hangup then some .ClientClosed else none

/-- One round of the loop. -/
def step (self : Relay) (round : Round) : Relay :=
  if self.ended ≠ none then self
  else
    match round.poll with
    | .Timeout | .Interrupted => self
    | .Failed => { self with ended := some .PollFailed }
    | .Ready pty client =>
      let self := if pty.input then self.relayPty round.read else self
      if self.ended ≠ none then self
      else if pty.hangup then self.drain round.drain
      else { self with ended := relayClient client round.input }

def start (output : List UInt8) : Relay := ⟨output, [], none⟩

/-! ## What the client has -/

/-- No call would have to wait, the poll does not fail, and the terminal refuses no input while
    there is output of it to read. -/
structure Calm (s : Relay) (round : Round) : Prop where
  poll : round.poll ≠ .Failed
  writes : ∀ read ∈ round.read :: round.drain, .error .EAGAIN ∉ read.writes
  input : round.input ≠ .Failed .EAGAIN
  refused : round.input = .Refused → s.pending = []

/-- **What a relay has done**: the client has the beginning of the output, and what it does not have
    can still be read.  If all was calm, the relay has ended with the output or with the client. -/
structure Relayed (calm : Prop) (output : List UInt8) (s : Relay) : Prop where
  inOrder : s.received <+: output
  running : s.ended = none → s.received ++ s.pending = output
  ends : calm → ∀ e, s.ended = some e →
    e = .PtyClosed ∧ s.received = output ∨ e.disconnected = true

variable {self} {output : List UInt8} {calm : Prop}

lemma Relayed.mono {calm' : Prop} (h : Relayed calm output self) (himp : calm' → calm) :
    Relayed calm' output self := ⟨h.inOrder, h.running, fun hcalm => h.ends (himp hcalm)⟩

end Relay

open Relay

end Rauha.Attach

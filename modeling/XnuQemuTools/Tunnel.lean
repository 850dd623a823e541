/-
The TCP tunnel, `tcp-tunnel/src/main.c`.

A `socket_t` bundles a descriptor with the functions of its side: the guest's own
socket calls (`init_native_socket`) or those of the host, reached through QEMU
(`init_qemu_socket`). There are three of them, global variables in the source and
`Role`s here. `recv r` is the expression `r->recv(r->fd, ..)`, `close r` is
`r->close(r->fd)`, and `socket r` is the assignment `r->fd = r->socket(..)`: the
field is read and written by the call, so it is part of the state that the calls
act on and not of the code between them.

`tunnel` loops without a bound, and so does `send_receive`. Each is cut at its
loop head into pieces that end with the label of the piece to run next
(`Calls.Reach`); `handle_incoming_connection` ends in a call of `send_receive`
and so jumps to its head.

Every call that can fail comes back with its value and with what `*(r->error)`
reads afterwards. Nothing is assumed about the errors, so the model does not say
which side's `errno` it is.
-/
import XnuQemuTools.Calls
import XnuQemuTools.Memory

set_option autoImplicit false

namespace XnuQemuTools.Tunnel

open Calls Calls.Prog Memory

/-! ## Sockets -/

/-- Whose descriptors a socket's functions act on. -/
inductive Side where
  | qemu
  | native
  deriving DecidableEq

/-- `s_listen`, `s_in` and `s_out`. -/
inductive Role where
  | listen
  | inward
  | outward
  deriving DecidableEq

/-- `DIR_IN` and `DIR_OUT`. -/
inductive Direction where
  | DIR_IN
  | DIR_OUT
  deriving DecidableEq

/-- Which `init_*_socket` `main` calls for each socket. -/
def Direction.side : Direction → Role → Side
  | .DIR_IN, .outward => .native
  | .DIR_IN, _ => .qemu
  | .DIR_OUT, .outward => .qemu
  | .DIR_OUT, _ => .native

/-- What `main` has read from the command line, and the constant `MAX_BUF_SIZE`. -/
structure Setup where
  direction : Direction
  daemonize : Bool
  listen_port : UInt32
  target_ip : String
  target_port : UInt32
  MAX_BUF_SIZE : ℕ

/-- An error number, as far as the code tells them apart. -/
inductive Errno where
  | EAGAIN
  | EWOULDBLOCK
  | other (code : ℤ)
  deriving DecidableEq

/-- Neither of the two comparisons with `EAGAIN` and `EWOULDBLOCK` succeeds. -/
def Errno.isHard : Errno → Bool
  | .EAGAIN => false
  | .EWOULDBLOCK => false
  | .other _ => true

/-- A value with the error read after the call. -/
structure Ret where
  retval : ℤ
  errno : Errno

/-- What `recv` gives: the value, the bytes it stored and the error. -/
structure Received where
  retval : ℤ
  data : List UInt8
  errno : Errno

/-- The calls of the tunnel. -/
inductive TunnelOp where
  | socket (r : Role)
  | accept
  | F_GETFL (r : Role)
  | F_SETFL (r : Role) (flags : ℤ)
  | bind (port : UInt16)
  | listen (backlog : ℕ)
  | inet_pton (ip : String)
  | connect (port : UInt16)
  | recv (r : Role)
  | send (r : Role) (bytes : List UInt8)
  | close (r : Role)
  | fork
  | closeStdin
  | usleep (usec : ℕ)
  | print (text : String) (errno : Option Errno)
  | exit (status : ℤ)
  deriving DecidableEq

/-- What each call answers; `exit` does not. The call `F_SETFL r flags` passes
`flags | O_NONBLOCK`. -/
abbrev TunnelRes : TunnelOp → Type
  | .socket _ => Ret
  | .accept => Ret
  | .F_GETFL _ => Ret
  | .F_SETFL _ _ => Ret
  | .bind _ => Ret
  | .listen _ => Ret
  | .inet_pton _ => Ret
  | .connect _ => Ret
  | .recv _ => Received
  | .send _ _ => Ret
  | .close _ => Unit
  | .fork => ℤ
  | .closeStdin => Unit
  | .usleep _ => Unit
  | .print _ _ => Unit
  | .exit _ => Empty

/-- A piece of the tunnel. -/
abbrev TunnelProg : Type → Type := Prog TunnelOp TunnelRes

/-- Where a piece of the tunnel may go: the head of the loop of `tunnel`, the call
of `handle_incoming_connection`, the head of the loop of `send_receive` with its
buffer, the return of the former two with their value, the return of `tunnel`. -/
inductive Label where
  | entry
  | accepting
  | incoming
  | relay (buffer : Mem)
  | handled (retval : ℤ)
  | returned (retval : ℤ)

/-- A value of type `ssize_t` assigned to an `int`. -/
def toInt (n : ℤ) : ℤ := Int.bmod n (2 ^ 32)

/-! ## `send_receive` -/

/-- `buffer` after `recv` has stored `data` at its beginning. -/
def fill (buffer : Mem) (data : List UInt8) : Mem := fun a => data.getD a (buffer a)

/-- The first `n` bytes of `buffer`. -/
def firstBytes (buffer : Mem) (n : ℕ) : List UInt8 := (List.range n).map buffer

/-- One half of the loop body: bytes from `src` to `dst`. `none` if it returned
from `send_receive`, which it does with `out` closed, whichever half it is. -/
def forward (src dst : Role) (buffer : Mem) : TunnelProg (Option Mem) := do
  let received ← perform (TunnelOp.recv src)
  let retval := toInt received.retval
  let buffer := fill buffer received.data
  if retval > 0 then
    -- only failure is looked at, not how much was sent
    let sent ← perform (TunnelOp.send dst (firstBytes buffer retval.toNat))
    if sent.retval < 0 then
      perform (TunnelOp.close .outward)
      return none
    else
      return some buffer
  else if 0 = retval then
    perform (TunnelOp.close .outward)
    return none
  else if received.errno.isHard then
    perform (TunnelOp.close .outward)
    return none
  else
    -- no data yet
    return some buffer

/-- One iteration of `send_receive`. -/
def send_receive (buffer : Mem) : TunnelProg Label := do
  match ← forward .inward .outward buffer with
  | none => return .handled 0
  | some buffer =>
      match ← forward .outward .inward buffer with
      | none => return .handled 0
      | some buffer => return .relay buffer

/-! ## `handle_incoming_connection` -/

/-- The message of a failed call; the sockets in `closing` are closed before the
return. -/
def errorExit (text : String) (errno : Errno) (closing : List Role) (l : Label) :
    TunnelProg Label := do
  perform (TunnelOp.print text (some errno))
  closing.forM fun r => perform (TunnelOp.close r)
  return l

/-- `handle_incoming_connection`, up to its call of `send_receive`, whose buffer
holds `stack` at first. -/
def handle_incoming_connection (setup : Setup) (stack : Mem) : TunnelProg Label := do
  let sckt ← perform (TunnelOp.socket .outward)
  if sckt.retval < 0 then
    errorExit "socket failed: %d\n" sckt.errno [] (.handled (-1))
  else
    let target ← perform (TunnelOp.inet_pton setup.target_ip)
    if target.retval ≤ 0 then
      errorExit "inet_pton failed: %d\n" target.errno [.outward] (.handled (-1))
    else
      let connected ← perform (TunnelOp.connect setup.target_port.toUInt16)
      if connected.retval < 0 then
        errorExit "connect failed: %d\n" connected.errno [.outward] (.handled (-1))
      else
        let flags ← perform (TunnelOp.F_GETFL .outward)
        if flags.retval < 0 then
          errorExit "fcntl[F_GETFL] failed: %d\n" flags.errno [.outward] (.handled (-1))
        else
          let set ← perform (TunnelOp.F_SETFL .outward flags.retval)
          if set.retval < 0 then
            errorExit "fcntl[F_SETFL] failed: %d\n" set.errno [.outward] (.handled (-1))
          else
            return .relay stack

/-! ## `tunnel` -/

/-- The branch of `tunnel` that forks into the background. -/
def daemon (setup : Setup) : TunnelProg Unit := do
  if setup.daemonize then
    perform (TunnelOp.print "Waiting for connections in the background...\n" none)
    let process_id ← perform TunnelOp.fork
    if process_id < 0 then
      perform (TunnelOp.print "Couldn't daemonize - continuing in foreground...\n" none)
    else if process_id > 0 then
      -- the parent
      let never ← perform (TunnelOp.exit 0)
      never.elim
    else
      perform TunnelOp.closeStdin
  else
    return ()

/-- `tunnel`, up to its loop. -/
def tunnel (setup : Setup) : TunnelProg Label := do
  let sckt ← perform (TunnelOp.socket .listen)
  if sckt.retval < 0 then
    errorExit "socket failed: %d\n" sckt.errno [] (.returned (-1))
  else
    let flags ← perform (TunnelOp.F_GETFL .listen)
    if flags.retval < 0 then
      errorExit "fcntl[F_GETFL] failed: %d\n" flags.errno [.listen] (.returned (-1))
    else
      let set ← perform (TunnelOp.F_SETFL .listen flags.retval)
      if set.retval < 0 then
        errorExit "fcntl[F_SETFL] failed: %d\n" set.errno [.listen] (.returned (-1))
      else
        let bound ← perform (TunnelOp.bind setup.listen_port.toUInt16)
        if bound.retval < 0 then
          errorExit "bind failed: %d\n" bound.errno [.listen] (.returned (-1))
        else
          let listening ← perform (TunnelOp.listen 5)
          if listening.retval < 0 then
            errorExit "listen failed: %d\n" listening.errno [.listen] (.returned (-1))
          else
            daemon setup
            return .accepting

/-- The head of the loop of `tunnel`: wait for a connection. -/
def acceptConnection : TunnelProg Label := do
  let accepted ← perform TunnelOp.accept
  if accepted.retval < 0 then
    if accepted.errno.isHard then
      errorExit "accept failed: %d\n" accepted.errno [.listen] (.returned (-1))
    else
      -- nobody there yet
      perform (TunnelOp.usleep 10000)
      return .accepting
  else
    return .incoming

/-- The rest of the loop body, once `handle_incoming_connection` has returned. -/
def afterConnection (retval : ℤ) : TunnelProg Label := do
  if retval < 0 then
    -- `break`
    perform (TunnelOp.close .inward)
    perform (TunnelOp.close .listen)
    return .returned 0
  else
    perform (TunnelOp.close .inward)
    return .accepting

/-- The pieces by their labels. -/
def code (setup : Setup) (stack : Mem) : Label → Option (TunnelProg Label)
  | .entry => some (tunnel setup)
  | .accepting => some acceptConnection
  | .incoming => some (handle_incoming_connection setup stack)
  | .relay buffer => some (send_receive buffer)
  | .handled retval => some (afterConnection retval)
  | .returned _ => none

/-! ## `terminate` -/

/-- The closing of one socket in `terminate`. -/
def shut (fd : Role → ℤ) (text : String) (r : Role) : TunnelProg Unit := do
  if fd r ≠ -1 then
    perform (TunnelOp.print text none)
    perform (TunnelOp.close r)
  else
    return ()

/-- `terminate`, with the descriptors it finds in the three fields. -/
def terminate (fd : Role → ℤ) : TunnelProg Unit := do
  shut fd "Closing outward socket...\n" .outward
  shut fd "Closing inward socket...\n" .inward
  shut fd "Closing listening socket...\n" .listen
  let never ← perform (TunnelOp.exit 0)
  never.elim

/-- The example of the documentation, `tunnel 2222:127.0.0.1:22`, with a page of
buffer. -/
def inwardSetup : Setup where
  direction := .DIR_IN
  daemonize := false
  listen_port := 2222
  target_ip := "127.0.0.1"
  target_port := 22
  MAX_BUF_SIZE := 4096

end XnuQemuTools.Tunnel

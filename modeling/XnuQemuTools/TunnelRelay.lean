/-
What the relay delivers.

`Flow` keeps what each socket's `recv` has returned and what each socket's `send`
has accepted since `send_receive` was called. Between the two lies the buffer, and
the buffer is refilled by the next `recv` whatever became of its contents:
`send_receive` looks at `send` only to see whether it failed. So the relay is
faithful in the runs in which every `send` takes all it is given or fails for good
(`relay_faithful`), and not beyond: after a short `send` the rest of the buffer is
lost, and an `EAGAIN` from the target socket, which `handle_incoming_connection`
has made non-blocking, ends the connection (`relay_loses`).

The two directions are one argument: `peer` exchanges the two ends.
-/
import XnuQemuTools.Tunnel
import Mathlib.Algebra.Ring.Nat
import Mathlib.Algebra.Ring.Int.Defs
import Mathlib.Logic.Function.Basic

set_option autoImplicit false

namespace XnuQemuTools.Tunnel

open Calls Calls.Prog Memory

/-! ## What has passed -/

/-- The other end of a connection. -/
def Role.peer : Role → Role
  | .listen => .listen
  | .inward => .outward
  | .outward => .inward

theorem peer_inj {q r : Role} : q.peer = r.peer ↔ q = r := by
  cases q <;> cases r <;> simp [Role.peer]

/-- The bytes that have passed since `send_receive` was called: `received r` were
returned by `recv` on socket `r`, `accepted r` were accepted by `send` on it. `eof
r`: a `recv` on it gave 0. `transient`: a `send` on the target socket failed with
`EAGAIN` or `EWOULDBLOCK`. -/
structure Flow where
  received : Role → List UInt8
  accepted : Role → List UInt8
  eof : Role → Bool
  transient : Bool

/-- Before the first iteration. -/
def Flow.start : Flow where
  received _ := []
  accepted _ := []
  eof _ := false
  transient := false

section Flow

variable (w : Flow) (r : Role) (bytes : List UInt8)

/-- A `recv` on socket `r` has returned `bytes`. -/
def Flow.receive : Flow :=
  { w with
    received := Function.update w.received r (w.received r ++ bytes)
    eof := Function.update w.eof r (w.eof r || bytes.isEmpty) }

/-- A `send` on socket `r` has accepted `bytes`. -/
def Flow.accept : Flow :=
  { w with accepted := Function.update w.accepted r (w.accepted r ++ bytes) }

/-- A `send` on socket `r` has failed. -/
def Flow.refuse (errno : Errno) : Flow :=
  { w with transient := w.transient || (decide (r = .outward) && !errno.isHard) }

end Flow

/-- What the two sockets may answer: `recv` up to `MAX_BUF_SIZE` bytes, none at the
end of the stream, or an error; `send` accepts at least one byte, or fails. -/
def relayEnv (setup : Setup) : Env TunnelOp TunnelRes Flow
  | .recv r, w, res, w' =>
      (res.retval = res.data.length ∧ res.data.length ≤ setup.MAX_BUF_SIZE
          ∧ w' = w.receive r res.data)
        ∨ (res.retval = -1 ∧ res.data = [] ∧ w' = w)
  | .send r bytes, w, res, w' =>
      (1 ≤ res.retval ∧ res.retval ≤ bytes.length
          ∧ w' = w.accept r (bytes.take res.retval.toNat))
        ∨ (res.retval = -1 ∧ w' = w.refuse r res.errno)
  | _, w, _, w' => w' = w

/-- The loop of `send_receive`, up to its return. -/
def relayCode : Label → Option (TunnelProg Label)
  | .relay buffer => some (send_receive buffer)
  | _ => none

/-- What the relay owes at a point of a run. -/
structure Faithful (p : TunnelProg Label) (w : Flow) : Prop where
  pre : ∀ r : Role, w.accepted r.peer <+: w.received r
  eof : ∀ (retval : ℤ) (r : Role), p = ret (.handled retval) → w.eof r = true →
    w.accepted r.peer = w.received r
  transient : ∀ retval : ℤ, p = ret (.handled retval) → w.transient = false

/-- The condition on a step: a `recv` gives a number that an `int` holds; a `send`
accepts everything, or fails, and not with `EAGAIN` or `EWOULDBLOCK` if it is one
to the target socket. -/
def Whole : (op : TunnelOp) → TunnelRes op → Prop
  | .recv _, res => res.retval < 2 ^ 31
  | .send r bytes, res =>
      res.retval = bytes.length ∨ (res.retval < 0 ∧ (r = .outward → res.errno.isHard = true))
  | _, _ => True

/-- The environments that meet the condition in every step. -/
def wholeEnv (setup : Setup) : Env TunnelOp TunnelRes Flow :=
  fun op w res w' => relayEnv setup op w res w' ∧ Whole op res

/-! ## Half an iteration -/

theorem toInt_of_small {n : ℤ} (hlow : -2 ^ 31 ≤ n) (hhigh : n < 2 ^ 31) : toInt n = n := by
  unfold toInt
  apply Int.bmod_eq_of_le <;> omega

/-- The buffer holds what was received last. -/
theorem firstBytes_fill (buffer : Mem) (data : List UInt8) :
    firstBytes (fill buffer data) data.length = data := by
  apply List.ext_getElem
  · simp [firstBytes]
  · intro i hi hi'
    simp [firstBytes, fill, hi']

section Half

variable {setup : Setup} {w : Flow}

/-- Nothing is under way: all that was received has been accepted. -/
structure Caught (w : Flow) : Prop where
  accepted : ∀ r : Role, w.accepted r.peer = w.received r
  eof : ∀ r, w.eof r = false
  transient : w.transient = false

/-- What is left when `send_receive` has returned. -/
structure Ended (w : Flow) : Prop where
  pre : ∀ r : Role, w.accepted r.peer <+: w.received r
  eof : ∀ r : Role, w.eof r = true → w.accepted r.peer = w.received r
  transient : w.transient = false

/-- What holds between any two calls. -/
def Prefixes (_ : Option TunnelOp) (w : Flow) : Prop :=
  ∀ r : Role, w.accepted r.peer <+: w.received r

theorem Caught.prefixes (h : Caught w) {o : Option TunnelOp} : Prefixes o w :=
  fun r => (h.accepted r) ▸ List.prefix_rfl

theorem Caught.ended (h : Caught w) : Ended w where
  pre := h.prefixes (o := none)
  eof r _ := h.accepted r
  transient := h.transient

/-- What half an iteration leaves, by whether it returned. -/
def Halfway (next : Option Mem) (w : Flow) : Prop := if next.isSome then Caught w else Ended w

theorem always_returns (h : Ended w) :
    Always (wholeEnv setup) Prefixes Halfway
      (perform (TunnelOp.close .outward) >>= fun _ => pure none) w := by
  refine always_call.mpr ⟨h.pre, fun _ w' hw => ?_⟩
  rw [show w' = w from hw.1]
  exact always_ret.mpr ⟨h.pre, h⟩

theorem always_goesOn (h : Caught w) (buffer : Mem) :
    Always (wholeEnv setup) Prefixes Halfway (pure (some buffer)) w :=
  always_ret.mpr ⟨h.prefixes, h⟩

/-- Received and not yet sent on: still a prefix. -/
theorem Caught.receive_pre (h : Caught w) (r : Role) (bytes : List UInt8) (q : Role) :
    (w.receive r bytes).accepted q.peer <+: (w.receive r bytes).received q := by
  have hold : (w.receive r bytes).accepted q.peer = w.received q := h.accepted q
  rw [hold]
  by_cases hq : q = r
  · subst hq
    simp [Flow.receive]
  · simp [Flow.receive, hq]

/-- The end of the stream adds nothing. -/
theorem Caught.receive_nil (h : Caught w) (r : Role) : Ended (w.receive r []) where
  pre := h.receive_pre r []
  eof q _ := by
    have hold : (w.receive r []).accepted q.peer = w.received q := h.accepted q
    rw [hold]
    simp [Flow.receive]
  transient := h.transient

/-- Received and sent on whole. -/
theorem Caught.receive_accept (h : Caught w) {r : Role} {bytes : List UInt8} (hne : bytes ≠ []) :
    Caught ((w.receive r bytes).accept r.peer bytes) where
  accepted q := by
    by_cases hq : q = r
    · subst hq
      simp [Flow.receive, Flow.accept, h.accepted q]
    · have hpeer : q.peer ≠ r.peer := fun heq => hq (peer_inj.mp heq)
      simp [Flow.receive, Flow.accept, hq, hpeer, h.accepted q]
  eof q := by
    have hempty : bytes.isEmpty = false := by simpa using hne
    by_cases hq : q = r
    · subst hq
      simp [Flow.receive, Flow.accept, h.eof q, hempty]
    · simp [Flow.receive, Flow.accept, hq, h.eof q]
  transient := h.transient

/-- Received, and the other end gone. -/
theorem Caught.receive_refuse (h : Caught w) {r : Role} {bytes : List UInt8} (hne : bytes ≠ [])
    {errno : Errno} (hhard : r.peer = .outward → errno.isHard = true) :
    Ended ((w.receive r bytes).refuse r.peer errno) where
  pre := h.receive_pre r bytes
  eof q hq := by
    have hempty : bytes.isEmpty = false := by simpa using hne
    have hfalse : (w.receive r bytes).eof q = false := by
      by_cases hqr : q = r
      · subst hqr
        simp [Flow.receive, h.eof q, hempty]
      · simp [Flow.receive, hqr, h.eof q]
    rw [show ((w.receive r bytes).refuse r.peer errno).eof q = _ from hfalse] at hq
    cases hq
  transient := by
    by_cases hr : r.peer = .outward
    · simp [Flow.receive, Flow.refuse, h.transient, hhard hr]
    · simp [Flow.receive, Flow.refuse, h.transient, hr]

/-- **Half an iteration.** It passes on all it receives, or returns. -/
theorem forward_caught (src : Role) (buffer : Mem) (h : Caught w) :
    Always (wholeEnv setup) Prefixes Halfway (forward src src.peer buffer) w := by
  rw [forward, perform_bind]
  refine always_call.mpr ⟨h.prefixes, fun received w₁ hrecv => ?_⟩
  obtain ⟨hrecv, hint⟩ := hrecv
  have hsmall : received.retval < 2 ^ 31 := hint
  rcases hrecv with ⟨hlength, -, rfl⟩ | ⟨hfailed, -, rfl⟩
  · have hvalue : toInt received.retval = received.data.length := by
      rw [toInt_of_small (by omega) hsmall, hlength]
    by_cases hdata : received.data = []
    · -- the end of the stream
      simp only [hvalue, hdata, List.length_nil]
      exact always_returns (h.receive_nil src)
    · -- bytes to send on
      have hpos : (received.data.length : ℤ) > 0 := by
        have := List.length_pos_iff.mpr hdata
        omega
      have hbytes : firstBytes (fill buffer received.data) (toInt received.retval).toNat
          = received.data := by rw [hvalue, Int.toNat_natCast, firstBytes_fill]
      rw [if_pos (by omega), perform_bind]
      refine always_call.mpr ⟨h.receive_pre src received.data, fun sent w₂ hsend => ?_⟩
      obtain ⟨hsend, hwhole⟩ := hsend
      rw [Whole, hbytes] at hwhole
      rw [relayEnv, hbytes] at hsend
      rcases hsend with ⟨hone, hmost, rfl⟩ | ⟨hfailed, rfl⟩
      · -- not a failure, so all of them
        have hall : sent.retval = received.data.length := by omega
        rw [if_neg (by omega), hall, Int.toNat_natCast, List.take_length]
        exact always_goesOn (h.receive_accept hdata) _
      · have hhard : src.peer = .outward → sent.errno.isHard = true := by
          rcases hwhole with hall | ⟨-, hhard⟩
          · omega
          · exact hhard
        rw [if_pos (by omega)]
        exact always_returns (h.receive_refuse hdata hhard)
  · have hvalue : toInt received.retval = -1 := by
      rw [hfailed]
      rfl
    simp only [hvalue]
    -- nothing has come, for the moment or for good
    cases received.errno.isHard
    · exact always_goesOn h _
    · exact always_returns h.ended

end Half

/-! ## Whole runs -/

section Runs

variable {setup : Setup} {w : Flow} {buffer : Mem} {p : TunnelProg Label}

/-- Where each label is reached. -/
def Delivered : Label → Flow → Prop
  | .relay _, w => Caught w
  | .handled _, w => Ended w
  | _, _ => False

theorem send_receive_caught (buffer : Mem) (h : Caught w) :
    Always (wholeEnv setup) Prefixes Delivered (send_receive buffer) w := by
  apply always_bind
  apply Always.mono (fun _ _ hI => hI) _ (forward_caught .inward buffer h)
  intro b w₁ hI₁ h₁
  rcases b with - | buffer₁
  · exact always_ret.mpr ⟨hI₁, h₁⟩
  · apply always_bind
    apply Always.mono (fun _ _ hI => hI) _ (forward_caught .outward buffer₁ h₁)
    intro b₂ w₂ hI₂ h₂
    rcases b₂ with - | buffer₂
    · exact always_ret.mpr ⟨hI₂, h₂⟩
    · exact always_ret.mpr ⟨hI₂, h₂⟩

theorem start_caught : Caught Flow.start where
  accepted _ := rfl
  eof _ := rfl
  transient := rfl

/-- **When the relay is faithful.** At every point of every run in which each step
is `Whole`. -/
theorem relay_faithful (h : Reach relayCode (wholeEnv setup) (.relay buffer) Flow.start p w) :
    Faithful p w := by
  have halways : Always (wholeEnv setup) Prefixes Delivered p w := by
    apply Reach.always ⟨start_caught.prefixes, start_caught⟩ _ h
    intro l q v hl hv
    cases l with
    | relay b =>
        obtain rfl := Option.some.inj hl
        exact send_receive_caught b hv
    | _ => cases hl
  refine ⟨halways.here, ?_, ?_⟩
  · rintro retval r rfl heof
    have hended : Ended w := halways.2
    exact hended.eof r heof
  · rintro retval rfl
    have hended : Ended w := halways.2
    exact hended.transient

/-! ## Runs of the relay

The client's bytes come as `recv` says, the target is silent, and both ends accept
as `send` says. -/

/-- The answers of such a run. -/
def relayScript (recv : Flow → List UInt8) (send : List UInt8 → Ret) :
    Handler TunnelOp TunnelRes Flow
  | .recv .inward, w =>
      if (recv w).length ≤ inwardSetup.MAX_BUF_SIZE then
        some (⟨(recv w).length, recv w, .other 0⟩, w.receive .inward (recv w))
      else none
  | .recv _, w => some (⟨-1, [], .EAGAIN⟩, w)
  | .send r bytes, w =>
      if (send bytes).retval = -1 then some (send bytes, w.refuse r (send bytes).errno)
      else if 1 ≤ (send bytes).retval ∧ (send bytes).retval ≤ bytes.length then
        some (send bytes, w.accept r (bytes.take (send bytes).retval.toNat))
      else none
  | .close _, w => some ((), w)
  | _, _ => none

theorem relayScript_env (recv : Flow → List UInt8) (send : List UInt8 → Ret) (op : TunnelOp)
    (w : Flow) (res : TunnelRes op) (w' : Flow)
    (h : relayScript recv send op w = some (res, w')) : relayEnv inwardSetup op w res w' := by
  cases op with
  | recv r =>
      cases r with
      | inward =>
          obtain ⟨hlength, heq⟩ := Option.ite_none_right_eq_some.mp h
          obtain ⟨rfl, rfl⟩ := Prod.mk.inj (Option.some.inj heq)
          exact Or.inl ⟨rfl, hlength, rfl⟩
      | _ =>
          obtain ⟨rfl, rfl⟩ := Prod.mk.inj (Option.some.inj h)
          exact Or.inr ⟨rfl, rfl, rfl⟩
  | send r bytes =>
      rw [relayScript] at h
      split at h
      · rename_i hfailed
        obtain ⟨rfl, rfl⟩ := Prod.mk.inj (Option.some.inj h)
        exact Or.inr ⟨hfailed, rfl⟩
      · obtain ⟨hsome, heq⟩ := Option.ite_none_right_eq_some.mp h
        obtain ⟨rfl, rfl⟩ := Prod.mk.inj (Option.some.inj heq)
        exact Or.inl ⟨hsome.1, hsome.2, rfl⟩
  | close r => exact (Prod.mk.inj (Option.some.inj h)).2.symm
  | _ => cases h

/-- Two bytes, then the end of the stream, and every `send` takes all it is given. -/
def relayTwo (op : TunnelOp) (w : Flow) : Option (TunnelRes op × Flow) :=
  relayScript (fun w => if w.received .inward = [] then [1, 2] else [])
    (fun bytes => ⟨bytes.length, .other 0⟩) op w

theorem relayTwo_env (op : TunnelOp) (w : Flow) (res : TunnelRes op) (w' : Flow)
    (h : relayTwo op w = some (res, w')) : wholeEnv inwardSetup op w res w' := by
  refine ⟨relayScript_env _ _ op w res w' h, ?_⟩
  cases op with
  | recv r =>
      rcases relayScript_env _ _ _ w res w' h with ⟨hlength, hmax, -⟩ | ⟨hfailed, -⟩
      · have : inwardSetup.MAX_BUF_SIZE = 4096 := rfl
        show res.retval < 2 ^ 31
        omega
      · show res.retval < 2 ^ 31
        omega
  | send r bytes =>
      rw [relayTwo, relayScript] at h
      split at h
      · rename_i hfailed
        simp at hfailed
      · obtain ⟨-, heq⟩ := Option.ite_none_right_eq_some.mp h
        obtain ⟨rfl, -⟩ := Prod.mk.inj (Option.some.inj heq)
        exact Or.inl rfl
  | _ => trivial

theorem relay_faithful_two : ∃ w,
    drive relayCode relayTwo 2 (.relay fun _ => 0) Flow.start = some (.handled 0, w)
      ∧ w.accepted .outward = [1, 2] := by
  have hfaithful := relay_faithful (Reach.drive relayTwo_env 2 Reach.start
    (rfl : drive relayCode relayTwo 2 (.relay fun _ => 0) Flow.start = some (.handled 0, _)))
  exact ⟨_, rfl, hfaithful.eof 0 .inward rfl rfl⟩

/-- What the relay loses. When `send` takes one byte of two, the second is
overwritten, and the next byte follows the first. When the target socket is not
ready, the relay ends with the byte it holds. -/
theorem relay_loses :
    (∃ buffer w, Reach relayCode (relayEnv inwardSetup) (.relay fun _ => 0) Flow.start
        (ret (.relay buffer)) w
      ∧ w.received .inward = [1, 2, 3] ∧ w.accepted .outward = [1, 3])
    ∧ (∃ w, Reach relayCode (relayEnv inwardSetup) (.relay fun _ => 0) Flow.start
        (ret (.handled 0)) w
      ∧ w.transient = true ∧ w.received .inward = [1] ∧ w.accepted .outward = [])
    ∧ ¬ ∀ p w, Reach relayCode (relayEnv inwardSetup) (.relay fun _ => 0) Flow.start p w →
        Faithful p w := by
  -- of the first two bytes one is accepted, and the next `recv` overwrites the other
  have hshort : ∃ buffer w, Reach relayCode (relayEnv inwardSetup) (.relay fun _ => 0) Flow.start
      (ret (.relay buffer)) w
      ∧ w.received .inward = [1, 2, 3] ∧ w.accepted .outward = [1, 3] :=
    ⟨_, _, Reach.drive (relayScript_env
      (fun w => if w.received .inward = [] then [1, 2] else [3]) (fun _ => ⟨1, .other 0⟩))
      2 Reach.start rfl, rfl, rfl⟩
  refine ⟨hshort, ⟨_, Reach.drive (relayScript_env (fun _ => [1]) (fun _ => ⟨-1, .EAGAIN⟩))
    1 Reach.start rfl, rfl, rfl, rfl⟩, fun h => ?_⟩
  obtain ⟨buffer, w, hreach, hreceived, haccepted⟩ := hshort
  have hpre := (h _ _ hreach).pre .inward
  rw [hreceived, show w.accepted Role.inward.peer = [1, 3] from haccepted] at hpre
  exact absurd hpre (by decide)

end Runs

end XnuQemuTools.Tunnel

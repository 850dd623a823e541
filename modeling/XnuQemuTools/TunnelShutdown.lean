/-
What `terminate` closes.

`terminate` goes by the three fields: it closes what a field holds unless it holds
-1. A field is -1 before the first `socket` or `accept` for it and after a failed
one, but no `close` in the program resets it. So whether a signal finds the fields
right depends on one thing only: whether some socket's last event is its `close`
(`shutsDown_iff`). After the first connection has ended it is, for as long as the
tunnel waits for the next one.
-/
import XnuQemuTools.TunnelFds

set_option autoImplicit false

namespace XnuQemuTools.Tunnel

open Calls Calls.Prog Memory

/-! ## The property -/

/-- Descriptor `v` of side `s` is an open socket of the tunnel. -/
def World.isOpen (w : World) (s : Side) (v : ℤ) : Bool :=
  match w.table s v with
  | some (.socket _) => true
  | _ => false

/-- The call closes descriptor `v` of side `s`. -/
def TunnelOp.closes (setup : Setup) (fd : Role → ℤ) (s : Side) (v : ℤ) : TunnelOp → Bool
  | .close r => setup.direction.side r = s ∧ fd r = v
  | _ => false

/-- `terminate`, run in `w`, calls `close` once on each open socket of the tunnel
and on no other descriptor. -/
def ShutsDown (setup : Setup) (w : World) : Prop :=
  ∀ tr status, Issues (terminate w.fd) tr (.exit status) →
    ∀ s v, (tr.countP fun e => e.1.closes setup w.fd s v) = if w.isOpen s v then 1 else 0

/-- Each field is -1 unless it names an open descriptor. -/
def FieldsNameOpen (setup : Setup) (w : World) : Prop :=
  ∀ r, w.fd r ≠ -1 ↔ w.isOpen (setup.direction.side r) (w.fd r) = true

/-- Every socket that was closed has been obtained, or failed to be, since. -/
def NoneClosed (w : World) : Prop := ∀ r, last r w.log ≠ .closed

/-! ## The calls of `terminate` -/

section Calls

variable {setup : Setup} {fd : Role → ℤ} {s : Side} {v : ℤ}

/-- How often `terminate` closes descriptor `v` of side `s` on behalf of `r`. -/
def share (setup : Setup) (fd : Role → ℤ) (s : Side) (v : ℤ) (r : Role) : ℕ :=
  if fd r ≠ -1 ∧ setup.direction.side r = s ∧ fd r = v then 1 else 0

theorem shut_closes {text : String} {r : Role} {tr : List (Σ op, TunnelRes op)} {u : Unit}
    (h : Returns (shut fd text r) tr u) :
    (tr.countP fun e => e.1.closes setup fd s v) = share setup fd s v r := by
  unfold shut at h
  unfold share
  by_cases hfd : fd r ≠ -1
  · rw [if_pos hfd, perform_bind, returns_call] at h
    obtain ⟨_, tr₁, rfl, h⟩ := h
    rw [perform, returns_call] at h
    obtain ⟨_, tr₂, rfl, h⟩ := h
    obtain ⟨rfl, -⟩ := (returns_ret _ _ _).mp h
    simp [hfd, TunnelOp.closes]
  · rw [if_neg hfd] at h
    obtain ⟨rfl, -⟩ := (returns_ret _ _ _).mp h
    simp [hfd]

theorem shut_not_exit {text : String} {r : Role} {tr : List (Σ op, TunnelRes op)} {status : ℤ} :
    ¬ Issues (shut fd text r) tr (.exit status) := by
  unfold shut
  rintro ⟨k, h⟩
  split at h
  · cases h with
    | step h =>
        cases h with
        | step h => cases h
  · cases h

theorem shut_returns (text : String) (r : Role) : ∃ tr, Returns (shut fd text r) tr () := by
  unfold shut
  split
  · exact ⟨[⟨.print text none, ()⟩, ⟨.close r, ()⟩], (Follows.refl _).step.step⟩
  · exact ⟨[], Follows.refl _⟩

/-- One socket, then the rest: no `exit` comes before the rest. -/
theorem shut_bind_exit {α : Type} {text : String} {r : Role} {rest : Unit → TunnelProg α}
    {tr : List (Σ op, TunnelRes op)} {status : ℤ}
    (h : Issues (shut fd text r >>= rest) tr (.exit status)) :
    ∃ tr₁ tr₂, tr = tr₁ ++ tr₂ ∧ Returns (shut fd text r) tr₁ ()
      ∧ Issues (rest ()) tr₂ (.exit status) := by
  rcases (issues_bind _ _ _ _).mp h with hexit | ⟨_, tr₁, tr₂, rfl, h₁, h₂⟩
  · exact absurd hexit shut_not_exit
  · exact ⟨tr₁, tr₂, rfl, h₁, h₂⟩

/-- What `terminate` closes until it exits. -/
theorem terminate_closes {tr : List (Σ op, TunnelRes op)} {status : ℤ}
    (h : Issues (terminate fd) tr (.exit status)) :
    (tr.countP fun e => e.1.closes setup fd s v)
      = share setup fd s v .outward + share setup fd s v .inward + share setup fd s v .listen := by
  unfold terminate at h
  obtain ⟨tr₁, tr', rfl, h₁, h'⟩ := shut_bind_exit h
  obtain ⟨tr₂, tr'', rfl, h₂, h''⟩ := shut_bind_exit h'
  obtain ⟨tr₃, tr₄, rfl, h₃, h₄⟩ := shut_bind_exit h''
  -- `exit` does not answer, so nothing comes behind it
  have hnil : tr₄ = [] := by
    rcases tr₄ with - | ⟨e, tr₅⟩
    · rfl
    · rw [perform_bind, issues_call_cons] at h₄
      obtain ⟨never, -⟩ := h₄
      exact Empty.elim never
  simp only [List.countP_append, shut_closes h₁, shut_closes h₂, shut_closes h₃, hnil,
    List.countP_nil]
  omega

/-- `terminate` always comes to its `exit`. -/
theorem terminate_exits (fd : Role → ℤ) : ∃ tr, Issues (terminate fd) tr (.exit 0) := by
  have hshut : ∀ text r, ∃ tr, Returns (shut fd text r) tr () := shut_returns
  obtain ⟨tr₁, h₁⟩ := hshut "Closing outward socket...\n" .outward
  obtain ⟨tr₂, h₂⟩ := hshut "Closing inward socket...\n" .inward
  obtain ⟨tr₃, h₃⟩ := hshut "Closing listening socket...\n" .listen
  refine ⟨tr₁ ++ (tr₂ ++ (tr₃ ++ [])), ?_⟩
  refine (issues_bind _ _ _ _).mpr (Or.inr ⟨(), tr₁, _, rfl, h₁, ?_⟩)
  refine (issues_bind _ _ _ _).mpr (Or.inr ⟨(), tr₂, _, rfl, h₂, ?_⟩)
  refine (issues_bind _ _ _ _).mpr (Or.inr ⟨(), tr₃, _, rfl, h₃, ?_⟩)
  exact ⟨_, Follows.refl _⟩

end Calls

/-! ## When it is right -/

section Shutdown

variable {setup : Setup} {w : World}

theorem isOpen_iff {s : Side} {v : ℤ} :
    w.isOpen s v = true ↔ ∃ r, w.table s v = some (.socket r) := by
  unfold World.isOpen
  rcases w.table s v with - | - | r <;> simp

/-- A field other than -1 of a socket that was not closed last names its open
descriptor. -/
theorem RoleInv.named {r : Role} (h : RoleInv setup w r) (hfd : w.fd r ≠ -1)
    (hnot : last r w.log ≠ .closed) :
    w.table (setup.direction.side r) (w.fd r) = some (.socket r) := by
  cases hlast : last r w.log with
  | unset => exact absurd (h.unset hlast) hfd
  | obtained => exact (h.obtained hlast).2
  | closed => exact absurd hlast hnot

/-- The field of a socket that was closed last is not -1 and names nothing open. -/
theorem RoleInv.stale {r : Role} (h : RoleInv setup w r) (hlast : last r w.log = .closed) :
    w.fd r ≠ -1 ∧ w.isOpen (setup.direction.side r) (w.fd r) = false := by
  obtain ⟨hpos, hnone⟩ := h.closed hlast
  refine ⟨by omega, ?_⟩
  unfold World.isOpen
  rw [hnone]

/-- If no socket was closed last, `terminate` closes a descriptor for `r` exactly
if it is an open descriptor of `r`. -/
theorem Inv.share (h : Inv setup w) (hnone : NoneClosed w) (s : Side) (v : ℤ) (r : Role) :
    share setup w.fd s v r = if w.table s v = some (.socket r) then 1 else 0 := by
  unfold Tunnel.share
  congr 1
  apply propext
  constructor
  · rintro ⟨hfd, rfl, rfl⟩
    exact (h r).named hfd (hnone r)
  · intro hopen
    obtain ⟨hlast, rfl, rfl⟩ := (h r).owned s v hopen
    have hpos := ((h r).obtained hlast).1
    exact ⟨by omega, rfl, rfl⟩

theorem Inv.shutsDown_iff_none (h : Inv setup w) : ShutsDown setup w ↔ NoneClosed w := by
  constructor
  · intro hshut r hlast
    obtain ⟨hfd, hclosed⟩ := (h r).stale hlast
    obtain ⟨tr, htr⟩ := terminate_exits w.fd
    -- the closed descriptor is closed once more
    have hcount := hshut tr 0 htr (setup.direction.side r) (w.fd r)
    rw [terminate_closes htr, hclosed] at hcount
    have hone : Tunnel.share setup w.fd (setup.direction.side r) (w.fd r) r = 1 :=
      if_pos ⟨hfd, rfl, rfl⟩
    cases r <;> simp at hcount <;> omega
  · intro hnone tr status htr s v
    -- an entry belongs to one socket at most, and only that one contributes
    rw [terminate_closes htr, h.share hnone, h.share hnone, h.share hnone]
    unfold World.isOpen
    rcases w.table s v with - | - | r
    · simp
    · simp
    · cases r <;> simp

theorem Inv.fieldsNameOpen_iff (h : Inv setup w) : FieldsNameOpen setup w ↔ NoneClosed w := by
  constructor
  · intro hfields r hlast
    obtain ⟨hfd, hclosed⟩ := (h r).stale hlast
    rw [(hfields r).mp hfd] at hclosed
    cases hclosed
  · intro hnone r
    constructor
    · exact fun hfd => isOpen_iff.mpr ⟨r, (h r).named hfd (hnone r)⟩
    · intro hopen
      obtain ⟨q, hq⟩ := isOpen_iff.mp hopen
      obtain ⟨hlast, -, hfd⟩ := (h q).owned _ _ hq
      -- whoever owns it, its number is not negative
      have hpos := ((h q).obtained hlast).1
      omega

/-- **When a signal shuts down cleanly.** At every point of every run, `terminate`
closes exactly what is open, and the fields name exactly what is open, if and only
if no socket's last event is its `close`. -/
theorem shutsDown_iff {stack : Mem} {w₀ : World} {p : TunnelProg Label} (hstart : Started w₀)
    (h : Reach (code setup stack) (env setup) .entry w₀ p w) :
    (ShutsDown setup w ↔ NoneClosed w) ∧ (FieldsNameOpen setup w ↔ NoneClosed w) := by
  have hinv := (reach_always hstart h).here.inv
  exact ⟨hinv.shutsDown_iff_none, hinv.fieldsNameOpen_iff⟩

/-- While the first connection is being relayed, a signal shuts down cleanly. -/
theorem shutsDown_iff_firstConnection : ∃ l w,
    drive (code inwardSetup fun _ => 0) oneConnection 3 .entry freshWorld = some (l, w)
      ∧ ShutsDown inwardSetup w := by
  refine ⟨_, _, rfl, ((shutsDown_iff freshWorld_started
    (oneConnection_reach (fun _ => 0) (n := 3) rfl)).1).mpr fun r => ?_⟩
  cases r <;> decide

/-- While the tunnel waits for the second connection, the outward and the inward
field still hold 3 and 4, both closed: `terminate` closes them again. -/
theorem secondConnection_stale : ∃ w,
    Reach (code inwardSetup fun _ => 0) (env inwardSetup) .entry freshWorld (ret .accepting) w
      ∧ ¬ ShutsDown inwardSetup w ∧ ¬ FieldsNameOpen inwardSetup w := by
  have hreach := oneConnection_reach (fun _ => 0) (n := 5) rfl
  have hinv := (reach_always freshWorld_started hreach).here.inv
  refine ⟨_, hreach, fun hshut => ?_, fun hfields => ?_⟩
  · exact hinv.shutsDown_iff_none.mp hshut .outward rfl
  · exact hinv.fieldsNameOpen_iff.mp hfields .outward rfl

end Shutdown

end XnuQemuTools.Tunnel

/-
Who holds which descriptor while the tunnel runs.

`World` is the three fields, the descriptor table of either side and a log of what
was obtained and closed. `env` lets every call answer anything, with three
exceptions: a successful `socket` or `accept` gives a descriptor that is free on
its side, a failed one gives -1, and `close` always releases.

`Inv` links a field to the table by the last entry of its socket in the log. The
fields are never reset, so after a `close` the field still holds the number: `Inv`
says that this number is free, and it can say so because only the socket itself
obtains on its side while it is in that state. `Holding` says which sockets are
open where. The two are carried through the pieces of the code by
`Calls.Reach.always`, and `tunnel_resource_safe` reads the result off.
-/
import XnuQemuTools.Tunnel
import Mathlib.Algebra.Ring.Nat
import Mathlib.Algebra.Ring.Int.Defs
import Mathlib.Logic.Function.Basic

set_option autoImplicit false

namespace XnuQemuTools.Tunnel

open Calls Calls.Prog Memory

/-! ## Descriptors -/

/-- What an open descriptor is: one the process was started with, or a socket of
the tunnel. -/
inductive Owner where
  | std
  | socket (r : Role)
  deriving DecidableEq

/-- What a call did to a descriptor. -/
inductive Event where
  | obtained (r : Role) (fd : ℤ)
  | failed (r : Role)
  | closed (r : Role) (fd : ℤ)
  deriving DecidableEq

/-- What last happened to a socket. -/
inductive Last where
  | unset
  | obtained
  | closed
  deriving DecidableEq

/-- The fields, the descriptor tables of the two sides, and the log, newest first. -/
structure World where
  fd : Role → ℤ
  table : Side → ℤ → Option Owner
  log : List Event

/-- What last happened to socket `r`, by the log. -/
def last (r : Role) : List Event → Last
  | [] => .unset
  | .obtained r' _ :: log => if r' = r then .obtained else last r log
  | .failed r' :: log => if r' = r then .unset else last r log
  | .closed r' _ :: log => if r' = r then .closed else last r log

@[simp] theorem last_obtained (r q : Role) (v : ℤ) (log : List Event) :
    last q (.obtained r v :: log) = if r = q then .obtained else last q log := rfl

@[simp] theorem last_failed (r q : Role) (log : List Event) :
    last q (.failed r :: log) = if r = q then .unset else last q log := rfl

@[simp] theorem last_closed (r q : Role) (v : ℤ) (log : List Event) :
    last q (.closed r v :: log) = if r = q then .closed else last q log := rfl

/-- Entry `v` of the table of side `s` becomes `o`. -/
def setEntry (table : Side → ℤ → Option Owner) (s : Side) (v : ℤ) (o : Option Owner) :
    Side → ℤ → Option Owner :=
  Function.update table s (Function.update (table s) v o)

@[simp] theorem setEntry_self (table : Side → ℤ → Option Owner) (s : Side) (v : ℤ)
    (o : Option Owner) : setEntry table s v o s v = o := by
  simp [setEntry]

theorem setEntry_ne {table : Side → ℤ → Option Owner} {s s' : Side} {v v' : ℤ}
    (o : Option Owner) (h : ¬ (s' = s ∧ v' = v)) : setEntry table s v o s' v' = table s' v' := by
  by_cases hs : s' = s
  · subst hs
    have hv : v' ≠ v := fun hv => h ⟨rfl, hv⟩
    simp [setEntry, hv]
  · simp [setEntry, hs]

section World

variable (setup : Setup) (w : World) (r : Role)

/-- Socket `r` has obtained descriptor `v`. -/
def World.obtain (v : ℤ) : World where
  fd := Function.update w.fd r v
  table := setEntry w.table (setup.direction.side r) v (some (.socket r))
  log := .obtained r v :: w.log

/-- Obtaining a descriptor for socket `r` has failed. -/
def World.fail : World where
  fd := Function.update w.fd r (-1)
  table := w.table
  log := .failed r :: w.log

/-- `close` of what the field of socket `r` holds. -/
def World.release : World where
  fd := w.fd
  table := setEntry w.table (setup.direction.side r) (w.fd r) none
  log := .closed r (w.fd r) :: w.log

/-- `close(STDIN_FILENO)`. -/
def World.closeStdin : World := { w with table := setEntry w.table .native 0 none }

@[simp] theorem obtain_table (v : ℤ) : (w.obtain setup r v).table
    = setEntry w.table (setup.direction.side r) v (some (.socket r)) := rfl

@[simp] theorem obtain_log (v : ℤ) :
    (w.obtain setup r v).log = .obtained r v :: w.log := rfl

@[simp] theorem fail_table : (w.fail r).table = w.table := rfl

@[simp] theorem fail_log : (w.fail r).log = .failed r :: w.log := rfl

@[simp] theorem release_table : (w.release setup r).table
    = setEntry w.table (setup.direction.side r) (w.fd r) none := rfl

@[simp] theorem release_log :
    (w.release setup r).log = .closed r (w.fd r) :: w.log := rfl

@[simp] theorem closeStdin_table : w.closeStdin.table = setEntry w.table .native 0 none := rfl

/-- `w'` is `w` after a `socket` or `accept` for socket `r` that gave `v`. -/
def World.Obtains (v : ℤ) (w' : World) : Prop :=
  (v = -1 ∧ w' = w.fail r)
    ∨ (0 ≤ v ∧ w.table (setup.direction.side r) v = none ∧ w' = w.obtain setup r v)

end World

/-- The calls, as far as descriptors go. -/
def env (setup : Setup) : Env TunnelOp TunnelRes World
  | .socket r, w, res, w' => w.Obtains setup r res.retval w'
  | .accept, w, res, w' => w.Obtains setup .inward res.retval w'
  | .close r, w, _, w' => w' = w.release setup r
  | .closeStdin, w, _, w' => w' = w.closeStdin
  | _, w, _, w' => w' = w

/-- The calls that leave the descriptors alone. -/
def TunnelOp.isPlain : TunnelOp → Bool
  | .socket _ => false
  | .accept => false
  | .close _ => false
  | .closeStdin => false
  | _ => true

/-- The socket whose field a call obtains. -/
def TunnelOp.obtains : TunnelOp → Option Role
  | .socket r => some r
  | .accept => some .inward
  | _ => none

/-- The socket whose descriptor a call is issued on. -/
def TunnelOp.issuedOn : TunnelOp → Option Role
  | .accept => some .listen
  | .F_GETFL r => some r
  | .F_SETFL r _ => some r
  | .bind _ => some .listen
  | .listen _ => some .listen
  | .connect _ => some .outward
  | .recv r => some r
  | .send r _ => some r
  | .close r => some r
  | _ => none

theorem env_plain {setup : Setup} {op : TunnelOp} {w w' : World} {res : TunnelRes op}
    (hplain : op.isPlain = true) (h : env setup op w res w') : w' = w := by
  cases op with
  | socket | accept | close | closeStdin => cases hplain
  | _ => exact h

/-- The world in which `tunnel` is called: the fields are -1, the standard streams
are open, no socket is. -/
structure Started (w : World) : Prop where
  fd : ∀ r, w.fd r = -1
  std : ∀ v, 0 ≤ v → v ≤ 2 → w.table .native v = some .std
  none : ∀ s v r, w.table s v ≠ some (.socket r)
  log : w.log = []

/-! ## The invariant -/

/-- The field of socket `r` against the table and the log. -/
structure RoleInv (setup : Setup) (w : World) (r : Role) : Prop where
  unset : last r w.log = .unset → w.fd r = -1
  obtained : last r w.log = .obtained →
    0 ≤ w.fd r ∧ w.table (setup.direction.side r) (w.fd r) = some (.socket r)
  closed : last r w.log = .closed →
    0 ≤ w.fd r ∧ w.table (setup.direction.side r) (w.fd r) = none
  owned : ∀ s v, w.table s v = some (.socket r) →
    last r w.log = .obtained ∧ s = setup.direction.side r ∧ v = w.fd r
  balance : ∀ v, w.log.count (.obtained r v) = w.log.count (.closed r v)
    + if w.table (setup.direction.side r) v = some (.socket r) then 1 else 0

/-- The invariant of the tunnel. -/
def Inv (setup : Setup) (w : World) : Prop := ∀ r, RoleInv setup w r

/-- Exactly the sockets in `rs` are open. -/
def Holding (rs : List Role) (w : World) : Prop := ∀ r, last r w.log = .obtained ↔ r ∈ rs

section Steps

variable {setup : Setup} {w : World} {r : Role} {rs : List Role}

theorem Started.last (h : Started w) (r : Role) : last r w.log = .unset := by
  rw [h.log]
  rfl

theorem Started.inv (h : Started w) : Inv setup w := by
  intro r
  have hlast := h.last r
  refine ⟨fun _ => h.fd r, ?_, ?_, fun s v hv => absurd hv (h.none s v r), fun v => ?_⟩
  · simp [hlast]
  · simp [hlast]
  · rw [if_neg (h.none _ v r), h.log]
    rfl

/-- What a step does to the other sockets: nothing, if the entries it changes are
not theirs and it does not give away a number that their field still holds. -/
theorem RoleInv.frame {w' : World} {q : Role} (h : RoleInv setup w q) (hfd : w'.fd q = w.fd q)
    (hlast : last q w'.log = last q w.log)
    (hcount : ∀ v, w'.log.count (.obtained q v) = w.log.count (.obtained q v)
      ∧ w'.log.count (.closed q v) = w.log.count (.closed q v))
    (htable : ∀ s v, w'.table s v = w.table s v
      ∨ (w.table s v ≠ some (.socket q) ∧ w'.table s v ≠ some (.socket q)
        ∧ (last q w.log = .closed → s = setup.direction.side q → v = w.fd q →
          w'.table s v = none))) : RoleInv setup w' q where
  unset hu := by
    rw [hfd]
    exact h.unset (hlast ▸ hu)
  obtained ho := by
    obtain ⟨hpos, hentry⟩ := h.obtained (hlast ▸ ho)
    rw [hfd]
    rcases htable (setup.direction.side q) (w.fd q) with heq | ⟨hne, -⟩
    · exact ⟨hpos, heq.trans hentry⟩
    · exact absurd hentry hne
  closed hc := by
    obtain ⟨hpos, hentry⟩ := h.closed (hlast ▸ hc)
    rw [hfd]
    rcases htable (setup.direction.side q) (w.fd q) with heq | ⟨-, -, hnone⟩
    · exact ⟨hpos, heq.trans hentry⟩
    · exact ⟨hpos, hnone (hlast ▸ hc) rfl rfl⟩
  owned s v hv := by
    rw [hfd, hlast]
    rcases htable s v with heq | ⟨-, hne, -⟩
    · exact h.owned s v (heq ▸ hv)
    · exact absurd hv hne
  balance v := by
    rw [(hcount v).1, (hcount v).2, h.balance v]
    rcases htable (setup.direction.side q) v with heq | ⟨hne, hne', -⟩
    · rw [heq]
    · rw [if_neg hne, if_neg hne']

/-- A socket that is not open has been closed as often as it was obtained. -/
theorem RoleInv.balanced (h : RoleInv setup w r) (hnot : last r w.log ≠ .obtained) (v : ℤ) :
    w.log.count (.obtained r v) = w.log.count (.closed r v) := by
  have hnone : w.table (setup.direction.side r) v ≠ some (.socket r) :=
    fun hv => hnot (h.owned _ v hv).1
  rw [h.balance v, if_neg hnone, Nat.add_zero]

/-- Obtaining keeps the invariant if no other socket of the side still names the
descriptor it has closed. -/
theorem Inv.obtain {v : ℤ} (h : Inv setup w) (hnot : last r w.log ≠ .obtained) (hv : 0 ≤ v)
    (hfree : w.table (setup.direction.side r) v = none)
    (hstale : ∀ q, q ≠ r → setup.direction.side q = setup.direction.side r →
      last q w.log ≠ .closed) : Inv setup (w.obtain setup r v) := by
  intro q
  by_cases hq : r = q
  · subst hq
    have hfd : (w.obtain setup r v).fd r = v := Function.update_self ..
    have hentry : (w.obtain setup r v).table (setup.direction.side r) v = some (.socket r) := by
      simp
    -- `r` had no descriptor, so this is its only one
    have hother : ∀ s x, ¬ (s = setup.direction.side r ∧ x = v) →
        (w.obtain setup r v).table s x ≠ some (.socket r) := by
      intro s x hx hsome
      rw [obtain_table, setEntry_ne _ hx] at hsome
      exact hnot ((h r).owned s x hsome).1
    refine ⟨?_, ?_, ?_, ?_, ?_⟩
    · simp
    · rw [hfd]
      exact fun _ => ⟨hv, hentry⟩
    · simp
    · intro s x hx
      by_cases hsx : s = setup.direction.side r ∧ x = v
      · exact ⟨if_pos rfl, hsx.1, hsx.2.trans hfd.symm⟩
      · exact absurd hx (hother s x hsx)
    · intro x
      have hbal := (h r).balanced hnot x
      by_cases hx : x = v
      · subst hx
        rw [if_pos hentry]
        simp [hbal]
      · rw [if_neg (hother _ x fun hsx => hx hsx.2)]
        simp [hbal, Ne.symm hx]
  · have hne : ∀ x, Event.obtained q x ≠ Event.obtained r v := by
      simp [Ne.symm hq]
    refine (h q).frame (Function.update_of_ne (Ne.symm hq) ..) (if_neg hq)
      (fun x => ⟨?_, ?_⟩) (fun s x => ?_)
    · simp [hq]
    · simp
    · by_cases hsx : s = setup.direction.side r ∧ x = v
      · obtain ⟨rfl, rfl⟩ := hsx
        -- the number was free: a socket could know it only from having closed it
        refine Or.inr ⟨by simp [hfree], by simp [hq], fun hc hs _ => ?_⟩
        exact absurd hc (hstale q (Ne.symm hq) hs.symm)
      · exact Or.inl (setEntry_ne _ hsx)

/-- A failed call leaves -1 in the field of a socket that was not open. -/
theorem Inv.fail (h : Inv setup w) (hnot : last r w.log ≠ .obtained) :
    Inv setup (w.fail r) := by
  intro q
  by_cases hq : r = q
  · subst hq
    have hnone : ∀ s x, w.table s x ≠ some (.socket r) :=
      fun s x hx => hnot ((h r).owned s x hx).1
    refine ⟨fun _ => Function.update_self .., ?_, ?_, fun s x hx => absurd hx (hnone s x), ?_⟩
    · simp
    · simp
    · intro x
      have hbal := (h r).balanced hnot x
      rw [fail_table, if_neg (hnone _ x)]
      simp [hbal]
  · refine (h q).frame (Function.update_of_ne (Ne.symm hq) ..) (if_neg hq)
      (fun x => ⟨?_, ?_⟩) (fun s x => Or.inl rfl)
    · simp
    · simp

/-- Closing an open socket. -/
theorem Inv.release (h : Inv setup w) (hopen : last r w.log = .obtained) :
    Inv setup (w.release setup r) := by
  intro q
  obtain ⟨hpos, hentry⟩ := (h r).obtained hopen
  by_cases hq : r = q
  · subst hq
    -- all that `r` owned was the entry its field names
    have hnone : ∀ s x, (w.release setup r).table s x ≠ some (.socket r) := by
      intro s x hx
      by_cases hsx : s = setup.direction.side r ∧ x = w.fd r
      · obtain ⟨rfl, rfl⟩ := hsx
        simp at hx
      · rw [release_table, setEntry_ne _ hsx] at hx
        exact hsx ((h r).owned s x hx).2
    refine ⟨?_, ?_, fun _ => ⟨hpos, setEntry_self ..⟩, fun s x hx => absurd hx (hnone s x), ?_⟩
    · simp
    · simp
    · intro x
      have hbal := (h r).balance x
      rw [if_neg (hnone _ x)]
      by_cases hx : x = w.fd r
      · subst hx
        rw [if_pos hentry] at hbal
        simp [hbal]
      · have hold : w.table (setup.direction.side r) x ≠ some (.socket r) :=
          fun hsome => hx ((h r).owned _ x hsome).2.2
        rw [if_neg hold] at hbal
        simp [hbal, Ne.symm hx]
  · refine (h q).frame rfl (if_neg hq) (fun x => ⟨?_, ?_⟩) (fun s x => ?_)
    · simp
    · simp [hq]
    · by_cases hsx : s = setup.direction.side r ∧ x = w.fd r
      · obtain ⟨rfl, rfl⟩ := hsx
        -- the entry was that of `r`, and it is free now
        refine Or.inr ⟨by simp [hentry, hq], by simp, fun _ _ _ => ?_⟩
        exact setEntry_self ..
      · exact Or.inl (setEntry_ne _ hsx)

/-- Closing the standard input, while it is what the process was started with. -/
theorem Inv.closeStdin (h : Inv setup w) (hstd : w.table .native 0 = some .std) :
    Inv setup w.closeStdin := by
  intro q
  refine (h q).frame rfl rfl (fun x => ⟨rfl, rfl⟩) (fun s x => ?_)
  by_cases hsx : s = .native ∧ x = 0
  · obtain ⟨rfl, rfl⟩ := hsx
    exact Or.inr ⟨by simp [hstd], by simp, fun _ _ _ => by simp⟩
  · exact Or.inl (setEntry_ne _ hsx)

end Steps

/-! ## The invariant through a call -/

/-- The invariant, with exactly the sockets in `rs` open. -/
structure At (setup : Setup) (rs : List Role) (w : World) : Prop where
  inv : Inv setup w
  holding : Holding rs w

/-- What holds before every call: the invariant; the call is issued on an open
socket; and it obtains a descriptor only for one that is not. -/
structure Guard (setup : Setup) (next : Option TunnelOp) (w : World) : Prop where
  inv : Inv setup w
  issued : ∀ op r, next = some op → op.issuedOn = some r → last r w.log = .obtained
  obtains : ∀ op r, next = some op → op.obtains = some r → last r w.log ≠ .obtained

section Rules

variable {setup : Setup} {w : World} {r : Role} {rs : List Role} {α : Type}
  {Q : α → World → Prop}

theorem At.guard_none (h : At setup rs w) : Guard setup none w :=
  ⟨h.inv, fun _ _ hop => (nomatch hop), fun _ _ hop => (nomatch hop)⟩

theorem At.guard {op : TunnelOp} (h : At setup rs w)
    (hissued : ∀ r, op.issuedOn = some r → r ∈ rs) (hobtains : ∀ r, op.obtains = some r → r ∉ rs) :
    Guard setup (some op) w := by
  refine ⟨h.inv, fun o q ho hq => ?_, fun o q ho hq hlast => ?_⟩
  · obtain rfl := Option.some.inj ho
    exact (h.holding q).mpr (hissued q hq)
  · obtain rfl := Option.some.inj ho
    exact hobtains q hq ((h.holding q).mp hlast)

theorem At.obtain {v : ℤ} (h : At setup rs w) (hr : r ∉ rs) (hv : 0 ≤ v)
    (hfree : w.table (setup.direction.side r) v = none)
    (hstale : ∀ q, q ≠ r → setup.direction.side q = setup.direction.side r →
      last q w.log ≠ .closed) : At setup (r :: rs) (w.obtain setup r v) where
  inv := h.inv.obtain (fun hlast => hr ((h.holding r).mp hlast)) hv hfree hstale
  holding q := by
    by_cases hq : r = q
    · simp [hq]
    · simp [hq, Ne.symm hq, h.holding q]

theorem At.fail (h : At setup rs w) (hr : r ∉ rs) : At setup rs (w.fail r) where
  inv := h.inv.fail fun hlast => hr ((h.holding r).mp hlast)
  holding q := by
    by_cases hq : r = q
    · subst hq
      simp [hr]
    · simp [hq, h.holding q]

theorem At.release (h : At setup rs w) (hr : r ∈ rs) :
    At setup (rs.filter (· ≠ r)) (w.release setup r) where
  inv := h.inv.release ((h.holding r).mpr hr)
  holding q := by
    by_cases hq : r = q
    · simp [hq]
    · simp [hq, Ne.symm hq, h.holding q]

theorem At.closeStdin (h : At setup rs w) (hstd : w.table .native 0 = some .std) :
    At setup rs w.closeStdin where
  inv := h.inv.closeStdin hstd
  holding := h.holding

/-- A call that leaves the descriptors alone. -/
theorem At.always_plain {op : TunnelOp} {k : TunnelRes op → TunnelProg α} (h : At setup rs w)
    (hplain : op.isPlain = true) (hissued : ∀ r, op.issuedOn = some r → r ∈ rs)
    (hk : ∀ res, Always (env setup) (Guard setup) Q (k res) w) :
    Always (env setup) (Guard setup) Q (call op k) w := by
  refine always_call.mpr ⟨h.guard hissued fun r hr => ?_, fun res w' hres => ?_⟩
  · cases op with
    | socket | accept => cases hplain
    | _ => cases hr
  · rw [env_plain hplain hres]
    exact hk res

/-- The same, for a call that is issued on no socket. -/
theorem At.always_other {op : TunnelOp} {k : TunnelRes op → TunnelProg α} (h : At setup rs w)
    (hplain : op.isPlain = true) (hon : op.issuedOn = none)
    (hk : ∀ res, Always (env setup) (Guard setup) Q (k res) w) :
    Always (env setup) (Guard setup) Q (call op k) w := by
  refine h.always_plain hplain (fun r hr => ?_) hk
  rw [hon] at hr
  cases hr

/-- The same, for a call on an open socket. -/
theorem At.always_issue {op : TunnelOp} {k : TunnelRes op → TunnelProg α} (h : At setup rs w)
    (hplain : op.isPlain = true) (hon : op.issuedOn = some r) (hr : r ∈ rs)
    (hk : ∀ res, Always (env setup) (Guard setup) Q (k res) w) :
    Always (env setup) (Guard setup) Q (call op k) w := by
  refine h.always_plain hplain (fun q hq => ?_) hk
  rw [hon] at hq
  exact Option.some.inj hq ▸ hr

/-- A call that obtains a descriptor, or fails to. -/
theorem At.always_obtain {op : TunnelOp} {k : TunnelRes op → TunnelProg α} (h : At setup rs w)
    (retval : TunnelRes op → ℤ) (hissued : ∀ q, op.issuedOn = some q → q ∈ rs)
    (hobtains : op.obtains = some r) (hr : r ∉ rs)
    (henv : ∀ res w', env setup op w res w' → w.Obtains setup r (retval res) w')
    (hstale : ∀ q, q ≠ r → setup.direction.side q = setup.direction.side r →
      last q w.log ≠ .closed)
    (hfail : ∀ res, retval res < 0 → At setup rs (w.fail r) →
      Always (env setup) (Guard setup) Q (k res) (w.fail r))
    (hok : ∀ res, 0 ≤ retval res → w.table (setup.direction.side r) (retval res) = none →
      At setup (r :: rs) (w.obtain setup r (retval res)) →
      Always (env setup) (Guard setup) Q (k res) (w.obtain setup r (retval res))) :
    Always (env setup) (Guard setup) Q (call op k) w := by
  refine always_call.mpr ⟨h.guard hissued fun q hq => ?_, fun res w' hres => ?_⟩
  · rw [hobtains] at hq
    exact Option.some.inj hq ▸ hr
  · rcases henv res w' hres with ⟨hv, rfl⟩ | ⟨hv, hfree, rfl⟩
    · exact hfail res (by omega) (h.fail hr)
    · exact hok res hv hfree (h.obtain hr hv hfree hstale)

theorem At.always_socket {k : Ret → TunnelProg α} (h : At setup rs w) (hr : r ∉ rs)
    (hstale : ∀ q, q ≠ r → setup.direction.side q = setup.direction.side r →
      last q w.log ≠ .closed)
    (hfail : ∀ res : Ret, res.retval < 0 → At setup rs (w.fail r) →
      Always (env setup) (Guard setup) Q (k res) (w.fail r))
    (hok : ∀ res : Ret, 0 ≤ res.retval →
      w.table (setup.direction.side r) res.retval = none →
      At setup (r :: rs) (w.obtain setup r res.retval) →
      Always (env setup) (Guard setup) Q (k res) (w.obtain setup r res.retval)) :
    Always (env setup) (Guard setup) Q (call (.socket r) k) w :=
  h.always_obtain Ret.retval (fun _ hq => nomatch hq) rfl hr (fun _ _ hw => hw) hstale hfail hok

theorem At.always_accept {k : Ret → TunnelProg α} (h : At setup rs w) (hlisten : .listen ∈ rs)
    (hr : .inward ∉ rs)
    (hstale : ∀ q, q ≠ .inward → setup.direction.side q = setup.direction.side .inward →
      last q w.log ≠ .closed)
    (hfail : ∀ res : Ret, res.retval < 0 → At setup rs (w.fail .inward) →
      Always (env setup) (Guard setup) Q (k res) (w.fail .inward))
    (hok : ∀ res : Ret, 0 ≤ res.retval →
      w.table (setup.direction.side .inward) res.retval = none →
      At setup (.inward :: rs) (w.obtain setup .inward res.retval) →
      Always (env setup) (Guard setup) Q (k res) (w.obtain setup .inward res.retval)) :
    Always (env setup) (Guard setup) Q (call .accept k) w :=
  h.always_obtain Ret.retval (fun _ hq => Option.some.inj hq ▸ hlisten) rfl hr
    (fun _ _ hw => hw) hstale hfail hok

/-- `close` of an open socket. -/
theorem At.always_close {k : Unit → TunnelProg α} (h : At setup rs w) (hr : r ∈ rs)
    (hk : ∀ w', At setup (rs.filter (· ≠ r)) w' →
      Always (env setup) (Guard setup) Q (k ()) w') :
    Always (env setup) (Guard setup) Q (call (.close r) k) w := by
  refine always_call.mpr ⟨h.guard (fun q hq => ?_) (fun q hq => ?_), fun res w' hres => ?_⟩
  · exact Option.some.inj hq ▸ hr
  · cases hq
  · rw [show w' = w.release setup r from hres]
    exact hk _ (h.release hr)

theorem At.always_print {text : String} {errno : Option Errno} {k : Unit → TunnelProg α}
    (h : At setup rs w) (hk : Always (env setup) (Guard setup) Q (k ()) w) :
    Always (env setup) (Guard setup) Q (call (.print text errno) k) w :=
  h.always_other rfl rfl fun _ => hk

end Rules

/-! ## The pieces of the code -/

section Pieces

variable {setup : Setup} {w : World} {r : Role} {rs : List Role} {stack : Mem}

/-- Where each label is reached, the sockets that are open there. -/
def Assertion (setup : Setup) : Label → World → Prop
  | .entry, w => Started w
  | .accepting, w => At setup [.listen] w
  | .incoming, w => At setup [.inward, .listen] w
  | .relay _, w => At setup [.outward, .inward, .listen] w
  | .handled _, w => At setup [.inward, .listen] w
  | .returned _, w => At setup [] w

/-- An error exit that closes nothing. -/
theorem At.always_errorExit (h : At setup rs w) {text : String} {errno : Errno} {l : Label}
    (hl : Assertion setup l w) :
    Always (env setup) (Guard setup) (Assertion setup) (errorExit text errno [] l) w :=
  h.always_print (always_ret.mpr ⟨h.guard_none, hl⟩)

/-- An error exit that closes one socket. -/
theorem At.always_errorClose (h : At setup rs w) {text : String} {errno : Errno} {l : Label}
    (hr : r ∈ rs) (hl : ∀ w', At setup (rs.filter (· ≠ r)) w' → Assertion setup l w') :
    Always (env setup) (Guard setup) (Assertion setup) (errorExit text errno [r] l) w :=
  h.always_print (h.always_close hr fun w' h' => always_ret.mpr ⟨h'.guard_none, hl w' h'⟩)

/-- What half an iteration leaves open: all three sockets if it goes on, and all
but the outward one if it has returned. -/
def Forwarded (setup : Setup) (next : Option Mem) (w : World) : Prop :=
  At setup (if next.isSome then [.outward, .inward, .listen] else [.inward, .listen]) w

theorem forward_always {src dst : Role} (hsrc : src ∈ [Role.outward, .inward, .listen])
    (hdst : dst ∈ [Role.outward, .inward, .listen]) (buffer : Mem)
    (h : At setup [.outward, .inward, .listen] w) :
    Always (env setup) (Guard setup) (Forwarded setup) (forward src dst buffer) w := by
  have hgoes : ∀ b, Always (env setup) (Guard setup) (Forwarded setup)
      (pure (some b) : TunnelProg (Option Mem)) w :=
    fun b => always_ret.mpr ⟨h.guard_none, h⟩
  have hreturns : Always (env setup) (Guard setup) (Forwarded setup)
      (perform (TunnelOp.close .outward) >>= fun _ => pure none) w :=
    h.always_close (by simp) fun w' h' => always_ret.mpr ⟨h'.guard_none, h'⟩
  rw [forward, perform_bind]
  apply h.always_issue rfl rfl hsrc
  intro received
  -- something to send on, the end of the stream, or an error
  by_cases hpos : toInt received.retval > 0
  · simp only [if_pos hpos]
    rw [perform_bind]
    apply h.always_issue rfl rfl hdst
    intro sent
    by_cases hsent : sent.retval < 0
    · simpa only [if_pos hsent] using hreturns
    · simpa only [if_neg hsent] using hgoes _
  · simp only [if_neg hpos]
    by_cases hzero : 0 = toInt received.retval
    · simpa only [if_pos hzero] using hreturns
    · simp only [if_neg hzero]
      cases received.errno.isHard
      · exact hgoes _
      · exact hreturns

theorem send_receive_always (buffer : Mem) (h : At setup [.outward, .inward, .listen] w) :
    Always (env setup) (Guard setup) (Assertion setup) (send_receive buffer) w := by
  apply always_bind
  apply Always.mono (fun _ _ hI => hI) _ (forward_always (by simp) (by simp) buffer h)
  intro b w₁ hI₁ h₁
  rcases b with - | buffer₁
  · exact always_ret.mpr ⟨hI₁, h₁⟩
  · apply always_bind
    apply Always.mono (fun _ _ hI => hI) _ (forward_always (by simp) (by simp) buffer₁ h₁)
    intro b₂ w₂ hI₂ h₂
    rcases b₂ with - | buffer₂
    · exact always_ret.mpr ⟨hI₂, h₂⟩
    · exact always_ret.mpr ⟨hI₂, h₂⟩

/-- The outward socket is alone on its side. -/
theorem side_outward {q : Role} (hq : q ≠ .outward) :
    setup.direction.side q ≠ setup.direction.side .outward := by
  cases setup.direction <;> cases q <;> simp_all [Direction.side]

theorem handle_incoming_connection_always (h : At setup [.inward, .listen] w) :
    Always (env setup) (Guard setup) (Assertion setup)
      (handle_incoming_connection setup stack) w := by
  rw [handle_incoming_connection, perform_bind]
  apply h.always_socket (by simp) (fun q hq hside => absurd hside (side_outward hq))
  · intro sckt hneg h'
    rw [if_pos hneg]
    exact h'.always_errorExit h'
  intro sckt hpos _ h'
  -- from here on every exit closes the outward socket
  have hexit : ∀ (text : String) (errno : Errno), Always (env setup) (Guard setup) (Assertion setup)
      (errorExit text errno [.outward] (.handled (-1))) (w.obtain setup .outward sckt.retval) :=
    fun _ _ => h'.always_errorClose (by simp) fun _ h'' => h''
  rw [if_neg (by omega), perform_bind]
  apply h'.always_other rfl rfl
  intro target
  split
  · exact hexit _ _
  rw [perform_bind]
  apply h'.always_issue rfl rfl (by simp)
  intro connected
  split
  · exact hexit _ _
  rw [perform_bind]
  apply h'.always_issue rfl rfl (by simp)
  intro flags
  split
  · exact hexit _ _
  rw [perform_bind]
  apply h'.always_issue rfl rfl (by simp)
  intro set
  split
  · exact hexit _ _
  · exact always_ret.mpr ⟨h'.guard_none, h'⟩

/-- Forking leaves the sockets alone, and closes the standard input in the child. -/
theorem daemon_always (h : At setup [.listen] w) (hstd : w.table .native 0 = some .std) :
    Always (env setup) (Guard setup) (fun _ w' => At setup [.listen] w') (daemon setup) w := by
  rw [daemon]
  cases setup.daemonize
  · exact always_ret.mpr ⟨h.guard_none, h⟩
  apply h.always_print
  apply h.always_other rfl rfl
  intro process_id
  show Always (env setup) (Guard setup) _
    (if process_id < 0 then _ else if process_id > 0 then _ else _) w
  -- no child, the parent, the child
  split
  · exact h.always_print (always_ret.mpr ⟨h.guard_none, h⟩)
  split
  · exact h.always_other rfl rfl fun never => never.elim
  · have hguard : Guard setup (some .closeStdin) w :=
      h.guard (fun _ hq => nomatch hq) fun _ hq => nomatch hq
    refine always_call.mpr ⟨hguard, fun _ w' hw => ?_⟩
    rw [show w' = w.closeStdin from hw]
    exact always_ret.mpr ⟨(h.closeStdin hstd).guard_none, h.closeStdin hstd⟩

theorem tunnel_always (h : Started w) :
    Always (env setup) (Guard setup) (Assertion setup) (tunnel setup) w := by
  have hnone : At setup [] w := by
    refine ⟨h.inv, fun r => ?_⟩
    rw [h.last r]
    simp
  rw [tunnel, perform_bind]
  apply hnone.always_socket (by simp) (fun q _ _ => by simp [h.last q])
  · intro sckt hneg h'
    rw [if_pos hneg]
    exact h'.always_errorExit h'
  intro sckt hpos hfree h'
  -- from here on every exit closes the listening socket
  have hexit : ∀ (text : String) (errno : Errno), Always (env setup) (Guard setup) (Assertion setup)
      (errorExit text errno [.listen] (.returned (-1))) (w.obtain setup .listen sckt.retval) :=
    fun _ _ => h'.always_errorClose (by simp) fun _ h'' => h''
  -- 0 is taken, so it is not what the listening socket got
  have hstd : (w.obtain setup .listen sckt.retval).table .native 0 = some .std := by
    have hzero : w.table .native 0 = some .std := h.std 0 (by omega) (by omega)
    rw [obtain_table, setEntry_ne]
    · exact hzero
    · rintro ⟨hs, hv⟩
      rw [← hs, ← hv, hzero] at hfree
      cases hfree
  rw [if_neg (by omega), perform_bind]
  apply h'.always_issue rfl rfl (by simp)
  intro flags
  split
  · exact hexit _ _
  rw [perform_bind]
  apply h'.always_issue rfl rfl (by simp)
  intro set
  split
  · exact hexit _ _
  rw [perform_bind]
  apply h'.always_issue rfl rfl (by simp)
  intro bound
  split
  · exact hexit _ _
  rw [perform_bind]
  apply h'.always_issue rfl rfl (by simp)
  intro listening
  split
  · exact hexit _ _
  · apply always_bind
    apply Always.mono (fun _ _ hI => hI) _ (daemon_always h' hstd)
    intro _ w'' hI h''
    exact always_ret.mpr ⟨hI, h''⟩

theorem acceptConnection_always (h : At setup [.listen] w) :
    Always (env setup) (Guard setup) (Assertion setup) acceptConnection w := by
  have hlisten : last .listen w.log = .obtained := (h.holding .listen).mpr (by simp)
  rw [acceptConnection, perform_bind]
  apply h.always_accept (by simp) (by simp)
  · -- the only other socket of the side is the listening one
    intro q hq hside
    cases q with
    | listen => simp [hlisten]
    | inward => exact absurd rfl hq
    | outward => exact absurd hside.symm (side_outward (by simp))
  · intro accepted hneg h'
    rw [if_pos hneg]
    split
    · exact h'.always_errorClose (by simp) fun _ h'' => h''
    · apply h'.always_other rfl rfl
      intro _
      exact always_ret.mpr ⟨h'.guard_none, h'⟩
  · intro accepted hpos _ h'
    rw [if_neg (by omega)]
    exact always_ret.mpr ⟨h'.guard_none, h'⟩

theorem afterConnection_always (retval : ℤ) (h : At setup [.inward, .listen] w) :
    Always (env setup) (Guard setup) (Assertion setup) (afterConnection retval) w := by
  rw [afterConnection]
  split
  · apply h.always_close (by simp)
    intro w₁ h₁
    apply h₁.always_close (by simp)
    intro w₂ h₂
    exact always_ret.mpr ⟨h₂.guard_none, h₂⟩
  · apply h.always_close (by simp)
    intro w₁ h₁
    exact always_ret.mpr ⟨h₁.guard_none, h₁⟩

end Pieces

/-! ## Whole runs -/

section Runs

variable {setup : Setup} {stack : Mem} {w₀ w : World} {p : TunnelProg Label}

/-- The invariant at every point of every run. -/
theorem reach_always (hstart : Started w₀)
    (h : Reach (code setup stack) (env setup) .entry w₀ p w) :
    Always (env setup) (Guard setup) (Assertion setup) p w := by
  have hguard : Guard setup none w₀ :=
    ⟨hstart.inv, fun _ _ hop => (nomatch hop), fun _ _ hop => (nomatch hop)⟩
  apply Reach.always ⟨hguard, hstart⟩ _ h
  intro l q v hl hv
  cases l with
  | entry =>
      obtain rfl := Option.some.inj hl
      exact tunnel_always hv
  | accepting =>
      obtain rfl := Option.some.inj hl
      exact acceptConnection_always hv
  | incoming =>
      obtain rfl := Option.some.inj hl
      exact handle_incoming_connection_always hv
  | relay buffer =>
      obtain rfl := Option.some.inj hl
      exact send_receive_always buffer hv
  | handled retval =>
      obtain rfl := Option.some.inj hl
      exact afterConnection_always retval hv
  | returned retval => cases hl

/-- **The tunnel is resource safe.** At every point of every run, whatever the
calls answer: no socket has two open descriptors, the next call is issued on an
open descriptor of its socket, and every descriptor has been closed as often as it
was obtained, or once less if it is open. When `tunnel` has returned, none is. -/
theorem tunnel_resource_safe (hstart : Started w₀)
    (h : Reach (code setup stack) (env setup) .entry w₀ p w) :
    (∀ r s v s' v', w.table s v = some (.socket r) → w.table s' v' = some (.socket r) →
        s = s' ∧ v = v')
      ∧ (∀ op r, p.next = some op → op.issuedOn = some r →
        w.table (setup.direction.side r) (w.fd r) = some (.socket r))
      ∧ (∀ r v, w.log.count (.obtained r v) = w.log.count (.closed r v)
        + if w.table (setup.direction.side r) v = some (.socket r) then 1 else 0)
      ∧ (∀ retval, p = ret (.returned retval) → ∀ s v r, w.table s v ≠ some (.socket r)) := by
  have halways := reach_always hstart h
  obtain ⟨hinv, hissued, -⟩ := halways.here
  refine ⟨fun r s v s' v' hv hv' => ?_, fun op r hop hon => ?_, fun r v => (hinv r).balance v, ?_⟩
  · obtain ⟨-, rfl, rfl⟩ := (hinv r).owned s v hv
    obtain ⟨-, rfl, rfl⟩ := (hinv r).owned s' v' hv'
    exact ⟨rfl, rfl⟩
  · exact ((hinv r).obtained (hissued op r hop hon)).2
  · rintro retval rfl s v r hv
    have hat : At setup [] w := halways.2
    exact absurd ((hat.holding r).mp ((hinv r).owned s v hv).1) (by simp)

end Runs

/-! ## A run

An inward tunnel serves one connection whose client closes at once, and then
fails to accept another. -/

/-- A process with its standard streams and nothing else. -/
def freshWorld : World where
  fd _ := -1
  table s v := if s = .native ∧ 0 ≤ v ∧ v ≤ 2 then some .std else none
  log := []

theorem freshWorld_started : Started freshWorld where
  fd _ := rfl
  std v hlow hhigh := if_pos ⟨rfl, hlow, hhigh⟩
  none s v r := by
    show (if s = .native ∧ 0 ≤ v ∧ v ≤ 2 then some Owner.std else none) ≠ some (.socket r)
    split <;> simp
  log := rfl

/-- The answers of the run. -/
def oneConnection : Handler TunnelOp TunnelRes World
  | .socket r, w =>
      if w.table (inwardSetup.direction.side r) 3 = none then
        some (⟨3, .other 0⟩, w.obtain inwardSetup r 3)
      else none
  | .accept, w =>
      if last .inward w.log = .unset ∧ w.table .qemu 4 = none then
        some (⟨4, .other 0⟩, w.obtain inwardSetup .inward 4)
      else some (⟨-1, .other 24⟩, w.fail .inward)
  | .F_GETFL _, w => some (⟨2, .other 0⟩, w)
  | .F_SETFL _ _, w => some (⟨0, .other 0⟩, w)
  | .bind _, w => some (⟨0, .other 0⟩, w)
  | .listen _, w => some (⟨0, .other 0⟩, w)
  | .inet_pton _, w => some (⟨1, .other 0⟩, w)
  | .connect _, w => some (⟨0, .other 0⟩, w)
  | .recv _, w => some (⟨0, [], .other 0⟩, w)
  | .send _ _, w => some (⟨-1, .other 32⟩, w)
  | .close r, w => some ((), w.release inwardSetup r)
  | .fork, w => some (1, w)
  | .closeStdin, w => some ((), w.closeStdin)
  | .usleep _, w => some ((), w)
  | .print _ _, w => some ((), w)
  | .exit _, _ => none

theorem oneConnection_env (op : TunnelOp) (w : World) (res : TunnelRes op) (w' : World)
    (h : oneConnection op w = some (res, w')) : env inwardSetup op w res w' := by
  cases op with
  | socket r =>
      obtain ⟨hfree, heq⟩ := Option.ite_none_right_eq_some.mp h
      obtain ⟨rfl, rfl⟩ := Prod.mk.inj (Option.some.inj heq)
      exact Or.inr ⟨by decide, hfree, rfl⟩
  | accept =>
      rw [oneConnection] at h
      split at h
      · rename_i hfree
        obtain ⟨rfl, rfl⟩ := Prod.mk.inj (Option.some.inj h)
        exact Or.inr ⟨by decide, hfree.2, rfl⟩
      · obtain ⟨rfl, rfl⟩ := Prod.mk.inj (Option.some.inj h)
        exact Or.inl ⟨rfl, rfl⟩
  | exit => cases h
  | _ => exact (Prod.mk.inj (Option.some.inj h)).2.symm

/-- The run after `n` pieces. -/
theorem oneConnection_reach (stack : Mem) {n : ℕ} {l : Label} {w : World}
    (h : drive (code inwardSetup stack) oneConnection n .entry freshWorld = some (l, w)) :
    Reach (code inwardSetup stack) (env inwardSetup) .entry freshWorld (ret l) w :=
  Reach.drive oneConnection_env n Reach.start h

/-- At the end of the run all three descriptors, 3 and 4 of the host and 3 of the
guest, have been closed as often as they were obtained. -/
theorem tunnel_resource_safe_oneConnection : ∃ w,
    drive (code inwardSetup fun _ => 0) oneConnection 6 .entry freshWorld
        = some (.returned (-1), w)
      ∧ w.log.length = 7 ∧ w.log.count (.closed .listen 3) = w.log.count (.obtained .listen 3)
      ∧ w.table .native 3 ≠ some (.socket .outward) := by
  obtain ⟨-, -, hbalance, hreturned⟩ := tunnel_resource_safe freshWorld_started
    (oneConnection_reach (fun _ => 0) (n := 6) rfl)
  refine ⟨_, rfl, rfl, ?_, hreturned _ rfl _ _ _⟩
  have hlisten := hbalance .listen 3
  rw [if_neg (hreturned _ rfl _ _ _)] at hlisten
  exact hlisten.symm

end XnuQemuTools.Tunnel

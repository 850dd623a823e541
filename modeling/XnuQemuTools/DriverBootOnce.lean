/-
The start of the driver, when its hook is called by several threads at once.

`_start` has a flag so that "it starts only once". The flag is a plain byte, which is read
and then written, so it does not keep out a thread that reads it in between
(`hook_started_twice`). `hook_once` is what holds of all interleavings in which no thread
does, in a kernel that is `Steady`: one thread at most gets past the flag, it makes its calls in
the order and under the mutexes that `Allowed` asks for whatever the others do meanwhile, and what
it has made when it returns is the devices of the files. The others return without having
called the kernel.
-/
import XnuQemuTools.DriverBoot
import XnuQemuTools.Once

set_option autoImplicit false

namespace XnuQemuTools.DriverBoot

open Calls Calls.Prog Interleave
open BlockDev (AlephBDevMembers Devices)

/-! ## The flag -/

/-- `start_once` behind `executed`. -/
def startGuard (num_block_devs : ℕ) : Guard BootOp BootRes (List AlephBDevMembers) where
  read := .read_executed
  isSet executed := executed != 0
  set := .write_executed 1
  skip := []
  body := start_once num_block_devs

theorem start_eq (num_block_devs : ℕ) : start num_block_devs = (startGuard num_block_devs).once := by
  refine congrArg (Prog.call BootOp.read_executed) (funext fun executed : UInt8 => ?_)
  by_cases hset : executed ≠ 0
  · exact (if_pos hset).trans
      (Guard.test_set (g := startGuard num_block_devs) (bne_iff_ne.mpr hset)).symm
  · have hclear : (executed != 0) = false := bne_eq_false_iff_eq.mpr (not_not.mp hset)
    exact (if_neg hset).trans (Guard.test_clear (g := startGuard num_block_devs) hclear).symm

/-- `executed` is set. -/
def World.isExecuted (s : World) : Bool := s.executed != 0

section Flag

variable {reg : Registry} {size : UInt64 → ℕ} {num_block_devs : ℕ}

theorem startGuard_lawful :
    (startGuard num_block_devs).Lawful (steadyEnv reg size) (Allowed reg) World.isExecuted where
  read := by
    rintro s r s' ⟨⟨hread, hs'⟩, -⟩
    have hflag : r = s.executed := hread
    exact ⟨hs', congrArg (· != 0) hflag⟩
  set := by
    rintro s r s' ⟨⟨-, rfl⟩, -⟩
    rfl
  keep := by
    rintro op s r s' hallowed ⟨⟨-, rfl⟩, -⟩ hset
    by_cases hop : ∃ v, op = .write_executed v
    · obtain ⟨v, rfl⟩ := hop
      exact bne_iff_ne.mpr hallowed
    · rw [World.isExecuted, executed_after fun v hv => hop ⟨v, hv⟩]
      exact hset
  allowed := fun _ => ⟨trivial, trivial, (by decide : (1 : UInt8) ≠ 0)⟩

/-- Behind the flag, alone: what the start makes, and that it is disciplined. -/
theorem body_always (hsize : ∀ i, size i < 2 ^ 63) {s : World} (hstage : s.Stage reg []) :
    Always (steadyEnv reg size) (Allowed reg)
      (fun made s' => s'.held = [] ∧ (∀ k, s'.Registered reg k)
        ∧ ∃ devs : Devices (Fin num_block_devs), devs.size = size
          ∧ (∀ d, devs.index d = UInt64.ofNat d) ∧ made = List.ofFn devs.members)
      (start_once num_block_devs) s := by
  have hmakes : Always (steadyEnv reg size) (fun _ _ => True)
      (fun made s' => s'.executed ≠ 0 ∧ StartMade size num_block_devs made)
      (start_once num_block_devs) s :=
    Always.restrict (fun _ _ _ _ h => h.1) (start_once_makes (World.Stage.executed hstage))
  refine Always.mono (fun _ _ h => h.2) (fun made s' _ h => ?_)
    (hmakes.and (start_once_always hstage))
  exact ⟨World.Stage.free h.2, World.Full.knows h.2, h.1.2.devices hsize⟩

end Flag

/-! ## Every interleaving -/

section Threads

variable {T : Type} [DecidableEq T]

/-- What the calls of the hook are, when threads make them. -/
abbrev HookState (T : Type) : Type := Config BootOp BootRes (List AlephBDevMembers) World T

/-- **The start of the driver happens once**, from however many threads the hook is called, if no
thread reads the flag while another is about to set it. -/
theorem hook_once {reg : Registry} {size : UInt64 → ℕ} (hsize : ∀ i, size i < 2 ^ 63)
    {num_block_devs : ℕ} {dict : String → Option UInt64} {c : HookState T}
    (hc : Reachable (fun _ => steadyEnv reg size) (· = start num_block_devs)
      (Unraced (startGuard num_block_devs) World.isExecuted) (World.first dict) c) :
    (∀ t p, c.threads t = some p → Allowed reg p.next c.shared) ∧
      ∃ starter : Option T, ∀ t p, c.threads t = some p →
        (some t ≠ starter → p = start num_block_devs ∨ p = ret [])
        ∧ (some t = starter → ∀ made, p = ret made →
            c.shared.held = [] ∧ (∀ k, c.shared.Registered reg k)
              ∧ ∃ devs : Devices (Fin num_block_devs), devs.size = size
                ∧ (∀ d, devs.index d = UInt64.ofNat d) ∧ made = List.ofFn devs.members) := by
  rw [start_eq] at hc ⊢
  have hprogress := Reachable.once (I := Allowed reg)
    (Q := fun made s => s.held = [] ∧ (∀ k, s.Registered reg k)
      ∧ ∃ devs : Devices (Fin num_block_devs), devs.size = size
        ∧ (∀ d, devs.index d = UInt64.ofNat d) ∧ made = List.ofFn devs.members)
    startGuard_lawful rfl ?_ hc
  · refine ⟨fun t p ht => hprogress.allowed startGuard_lawful ht, ?_⟩
    cases hprogress with
    | before hshared hthreads =>
        exact ⟨none, fun t p ht => ⟨fun _ => Or.inl (hthreads t p ht), nofun⟩⟩
    | testing t hshared ht hothers =>
        refine ⟨some t, fun u p hu => ⟨fun hne => ?_, ?_⟩⟩
        · exact Or.inl (hothers u p (fun h => hne (congrArg some h)) hu)
        · -- it has not returned
          rintro ⟨⟩ made rfl
          exact nomatch ht.symm.trans hu
    | begun t q ht hrun hset hothers =>
        refine ⟨some t, fun u p hu => ⟨fun hne => ?_, ?_⟩⟩
        · exact hothers u p (fun h => hne (congrArg some h)) hu
        · rintro ⟨⟩ made rfl
          obtain rfl := Option.some.inj (ht.symm.trans hu)
          exact hrun.2
  · rintro r s ⟨⟨-, rfl⟩, -⟩
    exact body_always hsize (stage_first dict)

/-- Before the first call of the hook. -/
def untouched : World := World.first fun _ => none

/-- A kernel in which the flag has been set and nothing else. -/
def flagged : World := { untouched with executed := 1 }

/-- What the threads of two concurrent calls do with the flag. -/
abbrev FlagStep (ok : HookState Bool → Bool → BootOp → Prop) : HookState Bool → HookState Bool → Prop :=
  Step (fun _ => steadyEnv onesRegistry fun _ => 100) (· = start 2) ok

section Flags

variable {ok : HookState Bool → Bool → BootOp → Prop} {c : HookState Bool} {t : Bool}

theorem flagStep_start (hnew : c.threads t = none) : FlagStep ok c (c.put t (start 2) c.shared) :=
  Step.start hnew rfl

theorem flagStep_read (ht : c.threads t = some (start 2)) (hok : ok c t .read_executed)
    (hs : c.shared = untouched) : FlagStep ok c (c.put t (startGuard 2).pass untouched) :=
  Step.call (r := (0 : UInt8)) (ht.trans (congrArg some (start_eq 2))) hok
    ⟨⟨hs ▸ rfl, hs.symm⟩, trivial⟩

theorem flagStep_late (ht : c.threads t = some (start 2)) (hok : ok c t .read_executed)
    (hs : c.shared = flagged) : FlagStep ok c (c.put t (ret []) flagged) :=
  Step.call (r := (1 : UInt8)) (ht.trans (congrArg some (start_eq 2))) hok
    ⟨⟨hs ▸ rfl, hs.symm⟩, trivial⟩

theorem flagStep_write (ht : c.threads t = some (startGuard 2).pass)
    (hok : ok c t (.write_executed 1)) (hs : c.shared = untouched ∨ c.shared = flagged) :
    FlagStep ok c (c.put t (start_once 2) flagged) := by
  refine Step.call (r := ()) ht hok ⟨⟨trivial, ?_⟩, trivial⟩
  rcases hs with hs | hs
  · rw [hs]
    rfl
  · rw [hs]
    rfl

end Flags

/-- The second thread comes when the first has set the flag: it returns, and the first goes on. -/
theorem hook_once_late : ∃ c : HookState Bool, c.threads true = some (ret []) ∧
    (∀ t p, c.threads t = some p → Allowed onesRegistry p.next c.shared) ∧
      ∃ starter : Option Bool, ∀ t p, c.threads t = some p →
        (some t ≠ starter → p = start 2 ∨ p = ret [])
        ∧ (some t = starter → ∀ made, p = ret made →
            c.shared.held = [] ∧ (∀ k, c.shared.Registered onesRegistry k)
              ∧ ∃ devs : Devices (Fin 2), devs.size = (fun _ => 100)
                ∧ (∀ d, devs.index d = UInt64.ofNat d) ∧ made = List.ofFn devs.members) := by
  have hread : Reachable (fun _ => steadyEnv onesRegistry fun _ => 100) (· = start 2)
      (Unraced (startGuard 2) World.isExecuted) untouched
      (((Config.boot untouched).put false (start 2) untouched).put false (startGuard 2).pass
        untouched) := by
    refine (Relation.ReflTransGen.single (flagStep_start (t := false) rfl)).tail
      (flagStep_read (t := false) rfl ?_ rfl)
    -- no other thread has started
    rintro - - u p hu
    cases u with
    | false =>
        obtain rfl := Option.some.inj hu
        exact fun h => nomatch Option.some.inj h
    | true => exact nomatch hu
  have hset := hread.tail (flagStep_write (t := false) rfl (fun h => nomatch h) (Or.inl rfl))
  have hcame := hset.tail (flagStep_start (t := true) rfl)
  have hlate := hcame.tail (flagStep_late (t := true) rfl (fun _ h => nomatch h) rfl)
  exact ⟨_, rfl, hook_once (fun _ => by decide) hlate⟩

/-- Both read the flag before one of them sets it, and both go on. -/
theorem hook_started_twice : ∃ c : HookState Bool,
    Reachable (fun _ => steadyEnv onesRegistry fun _ => 100) (· = start 2) (fun _ _ _ => True)
      untouched c
      ∧ ∀ t, c.threads t = some (start_once 2) := by
  have hstarted : Relation.ReflTransGen (FlagStep fun _ _ _ => True) (Config.boot untouched)
      (((Config.boot untouched).put false (start 2) untouched).put true (start 2) untouched) :=
    (Relation.ReflTransGen.single (flagStep_start (t := false) rfl)).tail
      (flagStep_start (t := true) rfl)
  have hread := (hstarted.tail (flagStep_read (t := false) rfl trivial rfl)).tail
    (flagStep_read (t := true) rfl trivial rfl)
  have hset := (hread.tail (flagStep_write (t := false) rfl trivial (Or.inl rfl))).tail
    (flagStep_write (t := true) rfl trivial (Or.inr rfl))
  refine ⟨_, hset, fun t => ?_⟩
  cases t <;> rfl

end Threads

end XnuQemuTools.DriverBoot

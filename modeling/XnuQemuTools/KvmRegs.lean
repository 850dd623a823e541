/-
The system registers the kernel module emulates, over whole runs.

A run is a list of trapped accesses, each with the virtual processor that made it and
the state it was in; between two accesses the guest may have done anything. What is
carried from one to the next is `custom_cpregs`, one array for the module.

The law of a register file would be that a read delivers what was last written to the
same register on the same processor. What the module gives is `mrs_delivers_latest`:
what was last written, on any processor, to a register with the same `Op0`, `Op1`, `CRn`
and `CRm`. `mrs_delivers_other` has the two ways in which this is less.
-/
import XnuQemuTools.Kvm
import Mathlib.Data.List.Induction

set_option autoImplicit false

namespace XnuQemuTools.Kvm

variable {V : Type}

/-- A trapped access of virtual processor `id`. -/
structure Access (V : Type) where
  id : V
  vcpu : Vcpu
  run : Run

namespace Access

/-- The register, the direction and the value. -/
def params (a : Access V) : SysRegParams := sys_reg_params a.vcpu

/-- `Rt`. -/
def rt (a : Access V) : Fin 32 := kvm_vcpu_sys_get_rt a.vcpu

/-- The access, as the hook finds it when the array is `cells`. -/
def state (a : Access V) (cells : Cells) : State := ⟨a.vcpu, a.run, cells⟩

end Access

/-- The state an exit ends in; a handler that is forwarded to cannot reach the array. -/
def Exit.cells : Exit → Cells
  | .forward s => s.custom_cpregs
  | .handled _ s => s.custom_cpregs

/-- The array after the accesses, from zeros. -/
def cellsAfter (accesses : List (Access V)) : Cells :=
  accesses.foldl (fun cells a => (kvm_handle_sys_reg_hook (a.state cells)).cells) fun _ => 0

/-- The value of the last of the accesses that writes and is `same`; zero if none is. -/
def latest (same : Access V → Bool) (accesses : List (Access V)) : UInt64 :=
  ((accesses.reverse.find? fun a => a.params.is_write && same a).map fun a => a.params.regval).getD 0

theorem latest_append (same : Access V → Bool) (accesses : List (Access V)) (a : Access V) :
    latest same (accesses ++ [a])
      = if a.params.is_write && same a then a.params.regval else latest same accesses := by
  rw [latest, List.reverse_append, List.reverse_singleton, List.singleton_append, List.find?_cons]
  cases a.params.is_write && same a with
  | false => rfl
  | true => rfl

/-- What one access does to a cell. -/
theorem cells_step (a : Access V) (cells : Cells) {p : SysRegParams} {c : Fin 12}
    (hp : storage p = some c) :
    (kvm_handle_sys_reg_hook (a.state cells)).cells c
      = if a.params.is_write && a.params.key == p.key then a.params.regval else cells c := by
  cases hstorage : storage a.params with
  | none =>
      have hkey : a.params.key ≠ p.key := by
        intro h
        rw [storage_congr h, hp] at hstorage
        cases hstorage
      rw [hook_forward (s := a.state cells) hstorage, beq_false_of_ne hkey, Bool.and_false]
      rfl
  | some d =>
      cases hwrite : a.params.is_write with
      | false =>
          rw [hook_read (s := a.state cells) hstorage hwrite]
          rfl
      | true =>
          rw [hook_write (s := a.state cells) hstorage hwrite, Bool.true_and]
          show Function.update cells d a.params.regval c = _
          by_cases hd : d = c
          · subst hd
            rw [key_eq_of_storage hstorage hp, beq_self_eq_true, if_pos rfl, Function.update_self]
          · have hkey : a.params.key ≠ p.key := by
              intro h
              rw [storage_congr h, hp] at hstorage
              exact hd (Option.some.inj hstorage).symm
            rw [beq_false_of_ne hkey, Function.update_of_ne (Ne.symm hd)]
            rfl

/-- Each cell holds what was last written to its registers. -/
theorem cellsAfter_eq_latest (accesses : List (Access V)) {p : SysRegParams} {c : Fin 12}
    (hp : storage p = some c) :
    cellsAfter accesses c = latest (fun a => a.params.key == p.key) accesses := by
  induction accesses using List.reverseRecOn with
  | nil => rfl
  | append_singleton accesses a ih =>
      rw [cellsAfter, List.foldl_append, List.foldl_cons, List.foldl_nil, cells_step a _ hp,
        latest_append, ← ih]
      rfl

/-- **Reads deliver what was last written**, on whichever processor, to a register with
the same `Op0`, `Op1`, `CRn` and `CRm`. A write changes no other such register, and a read
none; register 31 is written as zero and read to nowhere. -/
theorem mrs_delivers_latest (before : List (Access V)) (a : Access V) {c : Fin 12}
    (hc : storage a.params = some c) :
    ∃ s, kvm_handle_sys_reg_hook (a.state (cellsAfter before)) = .handled 1 s
      ∧ (a.params.is_write = false → ∀ r : Fin 31, s.vcpu.regs.regs r =
          if r.val = a.rt.val then latest (fun b => b.params.key == a.params.key) before
          else a.vcpu.regs.regs r)
      ∧ (a.params.is_write = true → s.vcpu.regs.regs = a.vcpu.regs.regs
          ∧ a.params.regval = if h : a.rt.val < 31 then a.vcpu.regs.regs ⟨a.rt.val, h⟩ else 0)
      ∧ ∀ (p : SysRegParams) (d : Fin 12), storage p = some d →
          s.custom_cpregs d = latest (fun b => b.params.key == p.key) (before ++ [a]) := by
  have hcells : ∀ (p : SysRegParams) (d : Fin 12), storage p = some d →
      (kvm_handle_sys_reg_hook (a.state (cellsAfter before))).cells d
        = latest (fun b => b.params.key == p.key) (before ++ [a]) := by
    intro p d hp
    rw [cells_step a _ hp, latest_append, cellsAfter_eq_latest before hp]
  cases hwrite : a.params.is_write with
  | false =>
      rw [hook_read (s := a.state (cellsAfter before)) hc hwrite] at hcells ⊢
      refine ⟨_, rfl, fun _ r => ?_, (fun h => nomatch h), hcells⟩
      exact (regs_vcpu_set_reg a.vcpu a.rt _ r).trans
        (congrArg (fun v => if r.val = a.rt.val then v else a.vcpu.regs.regs r)
          (cellsAfter_eq_latest before hc))
  | true =>
      rw [hook_write (s := a.state (cellsAfter before)) hc hwrite] at hcells ⊢
      exact ⟨_, rfl, (fun h => nomatch h), fun _ => ⟨rfl, rfl⟩, hcells⟩

/-- `msr s3_0_c15_c3_0, x1` is `access 0x303c26`, and `mrs x1, s3_0_c15_c3_0` is
`access 0x303c27`; `x1` is 7. -/
def access (id : V) (esr : UInt32) : Access V where
  id := id
  vcpu := { regs := { regs := fun _ => 7, sp := 0, pc := 0, pstate := 0 }, esr_el2 := esr }
  run := { exit_reason := 0, nr := 0, args := fun _ => 0 }

/-- A zero is written over the seven through `xzr`, and read back. -/
theorem mrs_delivers_latest_xzr : ∃ s : State,
    kvm_handle_sys_reg_hook ((access () 0x303c27).state
      (cellsAfter [access () 0x303c26, access () 0x303fe6])) = .handled 1 s
      ∧ s.vcpu.regs.regs 1 = 0 := by
  obtain ⟨s, hexit, hread, -⟩ := mrs_delivers_latest
    [access () 0x303c26, access () 0x303fe6] (access () 0x303c27) (c := 0) (by decide)
  exact ⟨s, hexit, (hread (by decide) 1).trans (by decide)⟩

/-- The last value written to the very same register on the very same processor. -/
def latestOwn [DecidableEq V] (before : List (Access V)) (a : Access V) : UInt64 :=
  latest (fun b => b.id == a.id && b.params.key == a.params.key && b.params.Op2 == a.params.Op2)
    before

/-- A read delivers what another processor wrote, and what was written to a register
with another `Op2`. -/
theorem mrs_delivers_other :
    (∃ s, kvm_handle_sys_reg_hook ((access false 0x303c27).state
        (cellsAfter [access true 0x303c26])) = .handled 1 s
      ∧ s.vcpu.regs.regs 1 = 7 ∧ latestOwn [access true 0x303c26] (access false 0x303c27) = 0)
    ∧ ∃ s, kvm_handle_sys_reg_hook ((access false 0x303c27).state
        (cellsAfter [access false 0x323c26])) = .handled 1 s
      ∧ s.vcpu.regs.regs 1 = 7 ∧ latestOwn [access false 0x323c26] (access false 0x303c27) = 0 := by
  refine ⟨⟨_, rfl, ?_, ?_⟩, _, rfl, ?_, ?_⟩ <;> decide

end XnuQemuTools.Kvm

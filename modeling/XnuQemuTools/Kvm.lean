/-
The two exit handlers of the kernel module (`xnu-kvm-lkm/xnu-kvm.c`).

KVM calls a handler when a guest makes an `hvc` call and when it accesses a system
register that traps. The hooks take some of these exits and pass the others to the
handlers that were there before; `Exit` says which of the two happened, and in what
state.

Which system registers are taken, and where each is kept, is `storage`, a case split
over some of the decoded fields. `storage_eq_some_iff` is its table: twelve pairs of
`Op1` and `CRm`, each with a cell of its own, all at `Op0 = 3` and `CRn = 15`. `Op2` is
decoded and not looked at.

`handled_iff` is what an exit leaves behind. Everything is as it should be except in
`kvm_handle_hvc_hook`, which stores `x5` into `args[0]` where `args[5]` was meant.

`ESR_ELx_SYS64_ISS_RT`, `ESR_ELx_xVC_IMM_MASK`, `DBG_SPSR_SS` and `KVM_EXIT_HYPERCALL` have
their values from the Linux headers.
-/
import Mathlib.Tactic.Common
import Mathlib.Tactic.FinCases
import Mathlib.Data.Fin.VecNotation
import Mathlib.Data.Fintype.Basic

set_option autoImplicit false

namespace XnuQemuTools.Kvm

/-! ## The state of an exit -/

/-- `struct user_pt_regs`. -/
structure UserPtRegs where
  regs : Fin 31 → UInt64
  sp : UInt64
  pc : UInt64
  pstate : UInt64

/-- What the hooks see of a `struct kvm_vcpu`. -/
structure Vcpu where
  regs : UserPtRegs
  esr_el2 : UInt32

/-- What the hooks see of a `struct kvm_run`; `nr` and `args` are those of `hypercall`. -/
structure Run where
  exit_reason : UInt32
  nr : UInt64
  args : Fin 6 → UInt64

/-- `custom_cpregs`. -/
abbrev Cells : Type := Fin 12 → UInt64

/-- What a hook can read and write. -/
structure State where
  vcpu : Vcpu
  run : Run
  custom_cpregs : Cells

/-- How a hook ends: it calls the handler it replaced, or returns. -/
inductive Exit where
  | forward (s : State)
  | handled (code : ℤ) (s : State)

/-! ## The accessors -/

/-- `vcpu_get_reg`. Register 31 reads as zero. -/
def vcpu_get_reg (vcpu : Vcpu) (reg_num : Fin 32) : UInt64 :=
  if h : reg_num.val < 31 then vcpu.regs.regs ⟨reg_num.val, h⟩ else 0

/-- `vcpu_set_reg`. A write to register 31 is discarded. -/
def vcpu_set_reg (vcpu : Vcpu) (reg_num : Fin 32) (val : UInt64) : Vcpu :=
  if h : reg_num.val < 31 then
    { vcpu with
      regs := { vcpu.regs with regs := Function.update vcpu.regs.regs ⟨reg_num.val, h⟩ val } }
  else vcpu

/-- `kvm_vcpu_get_hsr`. -/
def kvm_vcpu_get_hsr (vcpu : Vcpu) : UInt32 := vcpu.esr_el2

/-- `kvm_vcpu_sys_get_rt`: five bits of the syndrome. -/
def kvm_vcpu_sys_get_rt (vcpu : Vcpu) : Fin 32 := Fin.ofNat 32 (kvm_vcpu_get_hsr vcpu >>> 5).toNat

/-- `kvm_vcpu_hvc_get_imm`. -/
def kvm_vcpu_hvc_get_imm (vcpu : Vcpu) : UInt32 := kvm_vcpu_get_hsr vcpu &&& 0xffff

/-- `DBG_SPSR_SS`. -/
def DBG_SPSR_SS : UInt64 := 0x200000

/-- `KVM_EXIT_HYPERCALL`. -/
def KVM_EXIT_HYPERCALL : UInt32 := 3

/-! ## `kvm_handle_hvc_hook` -/

/-- `kvm_handle_hvc_hook`. The last assignment is to `args[0]` again. -/
def kvm_handle_hvc_hook (s : State) : Exit :=
  let hvc_imm := kvm_vcpu_hvc_get_imm s.vcpu
  if hvc_imm ≠ 0 then
    let args := Function.update s.run.args 0 (vcpu_get_reg s.vcpu 0)
    let args := Function.update args 1 (vcpu_get_reg s.vcpu 1)
    let args := Function.update args 2 (vcpu_get_reg s.vcpu 2)
    let args := Function.update args 3 (vcpu_get_reg s.vcpu 3)
    let args := Function.update args 4 (vcpu_get_reg s.vcpu 4)
    let args := Function.update args 0 (vcpu_get_reg s.vcpu 5)
    .handled 0
      { s with run := { exit_reason := KVM_EXIT_HYPERCALL, nr := hvc_imm.toUInt64, args := args } }
  else .forward s

/-! ## `kvm_handle_sys_reg_hook` -/

/-- `struct sys_reg_params`, without the two fields that are always false. -/
structure SysRegParams where
  Op0 : UInt8
  Op1 : UInt8
  CRn : UInt8
  CRm : UInt8
  Op2 : UInt8
  regval : UInt64
  is_write : Bool

/-- The fields of the syndrome, and the value to be written. -/
def sys_reg_params (vcpu : Vcpu) : SysRegParams :=
  let esr := (kvm_vcpu_get_hsr vcpu).toUInt64
  { Op0 := ((esr >>> 20) &&& 3).toUInt8
    Op1 := ((esr >>> 14) &&& 0x7).toUInt8
    CRn := ((esr >>> 10) &&& 0xf).toUInt8
    CRm := ((esr >>> 1) &&& 0xf).toUInt8
    Op2 := ((esr >>> 17) &&& 0x7).toUInt8
    regval := vcpu_get_reg vcpu (kvm_vcpu_sys_get_rt vcpu)
    is_write := esr &&& 1 == 0 }

/-- `storage`, as an index into `custom_cpregs`; `none` is the jump to `kvm_impl`. -/
def storage (params : SysRegParams) : Option (Fin 12) :=
  if params.Op0 = 3 ∧ params.CRn = 15 then
    if params.Op1 = 0 then
      if params.CRm = 3 then some 0
      else if params.CRm = 4 then some 1
      else if params.CRm = 5 then some 2
      else if params.CRm = 7 then some 3
      else if params.CRm = 8 then some 4
      else if params.CRm = 13 then some 5
      else none
    else if params.Op1 = 1 then
      if params.CRm = 0 then some 6
      else if params.CRm = 1 then some 7
      else if params.CRm = 13 then some 8
      else none
    else if params.Op1 = 2 then
      if params.CRm = 0 then some 9
      else if params.CRm = 1 then some 10
      else none
    else if params.Op1 = 3 then
      if params.CRm = 0 then some 11
      else none
    else none
  else none

/-- The end of a handled access: `pc` moves on, and single-stepping is cleared. -/
def advance (vcpu : Vcpu) : Vcpu :=
  { vcpu with
    regs := { vcpu.regs with
      pc := vcpu.regs.pc + 4
      pstate := vcpu.regs.pstate &&& ~~~DBG_SPSR_SS } }

/-- `kvm_handle_sys_reg_hook`. -/
def kvm_handle_sys_reg_hook (s : State) : Exit :=
  let params := sys_reg_params s.vcpu
  match storage params with
  | none => .forward s
  | some c =>
      if !params.is_write then
        let vcpu := vcpu_set_reg s.vcpu (kvm_vcpu_sys_get_rt s.vcpu) (s.custom_cpregs c)
        .handled 1 { s with vcpu := advance vcpu }
      else
        .handled 1
          { s with
            vcpu := advance s.vcpu
            custom_cpregs := Function.update s.custom_cpregs c params.regval }

/-! ## The table of registers -/

/-- `Op1` and `CRm` of the register kept in each cell. -/
def register : Fin 12 → UInt8 × UInt8 :=
  ![(0, 3), (0, 4), (0, 5), (0, 7), (0, 8), (0, 13), (1, 0), (1, 1), (1, 13), (2, 0), (2, 1), (3, 0)]

/-- **The registers that are taken, each with its cell.** -/
theorem storage_eq_some_iff (p : SysRegParams) (c : Fin 12) :
    storage p = some c ↔ p.Op0 = 3 ∧ p.CRn = 15 ∧ register c = (p.Op1, p.CRm) := by
  constructor
  · intro h
    unfold storage at h
    split_ifs at h with hop
    all_goals
      obtain rfl := Option.some.inj h
      simp_all [register]
  · rintro ⟨hOp0, hCRn, hreg⟩
    have hOp1 : p.Op1 = (register c).1 := congrArg Prod.fst hreg.symm
    have hCRm : p.CRm = (register c).2 := congrArg Prod.snd hreg.symm
    rw [storage, if_pos ⟨hOp0, hCRn⟩, hOp1, hCRm]
    clear hreg hOp1 hCRm
    revert c
    decide

/-- The fields that decide where an access goes. -/
def SysRegParams.key (p : SysRegParams) : UInt8 × UInt8 × UInt8 × UInt8 :=
  (p.Op0, p.Op1, p.CRn, p.CRm)

/-- A cell belongs to one value of these fields. -/
theorem key_eq_of_storage {p q : SysRegParams} {c : Fin 12} (hp : storage p = some c)
    (hq : storage q = some c) : p.key = q.key := by
  obtain ⟨hp0, hp15, hpreg⟩ := (storage_eq_some_iff p c).mp hp
  obtain ⟨hq0, hq15, hqreg⟩ := (storage_eq_some_iff q c).mp hq
  obtain ⟨hOp1, hCRm⟩ := Prod.mk.inj (hpreg.symm.trans hqreg)
  rw [SysRegParams.key, SysRegParams.key, hp0, hp15, hq0, hq15, hOp1, hCRm]

/-- And `Op2`, the value and the direction have no say in it. -/
theorem storage_congr {p q : SysRegParams} (h : p.key = q.key) : storage p = storage q := by
  unfold SysRegParams.key at h
  obtain ⟨hOp0, h⟩ := Prod.mk.inj h
  obtain ⟨hOp1, h⟩ := Prod.mk.inj h
  obtain ⟨hCRn, hCRm⟩ := Prod.mk.inj h
  rw [storage, storage, hOp0, hOp1, hCRn, hCRm]

/-! ## What an exit leaves behind -/

/-- The two exits. -/
inductive Trap where
  | hvc
  | sys_reg
  deriving DecidableEq

/-- The hook of an exit. -/
def hook : Trap → State → Exit
  | .hvc => kvm_handle_hvc_hook
  | .sys_reg => kvm_handle_sys_reg_hook

/-- User space gets the immediate as `nr`, and `x0` to `x5` as `args`. -/
structure Hypercall (vcpu : Vcpu) (run : Run) : Prop where
  exit_reason : run.exit_reason = KVM_EXIT_HYPERCALL
  nr : run.nr = (kvm_vcpu_hvc_get_imm vcpu).toUInt64
  args : ∀ k : Fin 6, run.args k = vcpu_get_reg vcpu ⟨k.val, by omega⟩

/-- The instruction has been stepped over: of the registers other than the general ones
only `pc` and the single-step bit of `pstate` have changed. -/
structure SteppedOver (vcpu vcpu' : Vcpu) : Prop where
  pc : vcpu'.regs.pc = vcpu.regs.pc + 4
  pstate : vcpu'.regs.pstate = vcpu.regs.pstate &&& ~~~DBG_SPSR_SS
  sp : vcpu'.regs.sp = vcpu.regs.sp
  esr_el2 : vcpu'.esr_el2 = vcpu.esr_el2

/-- `kvm_handle_hvc_hook` as it should be: forwarded untouched, or handled completely. -/
def HvcHandled (s : State) (e : Exit) : Prop :=
  if kvm_vcpu_hvc_get_imm s.vcpu = 0 then e = .forward s
  else ∃ run, e = .handled 0 { s with run := run } ∧ Hypercall s.vcpu run

/-- `kvm_handle_sys_reg_hook` likewise. A read changes `Rt`, a write the register's cell,
and nothing else changes. -/
def SysRegHandled (s : State) (e : Exit) : Prop :=
  match storage (sys_reg_params s.vcpu) with
  | none => e = .forward s
  | some c => ∃ s', e = .handled 1 s' ∧ SteppedOver s.vcpu s'.vcpu ∧ s'.run = s.run
      ∧ if (sys_reg_params s.vcpu).is_write then
          s'.vcpu.regs.regs = s.vcpu.regs.regs
          ∧ s'.custom_cpregs = Function.update s.custom_cpregs c (sys_reg_params s.vcpu).regval
        else
          s'.custom_cpregs = s.custom_cpregs
          ∧ ∀ r : Fin 31, s'.vcpu.regs.regs r =
              if r.val = (kvm_vcpu_sys_get_rt s.vcpu).val then s.custom_cpregs c
              else s.vcpu.regs.regs r

/-- An exit is forwarded untouched or handled completely. -/
def Handled : Trap → State → Exit → Prop
  | .hvc, s, e => HvcHandled s e
  | .sys_reg, s, e => SysRegHandled s e

theorem regs_vcpu_set_reg (vcpu : Vcpu) (n : Fin 32) (val : UInt64) (r : Fin 31) :
    (vcpu_set_reg vcpu n val).regs.regs r = if r.val = n.val then val else vcpu.regs.regs r := by
  unfold vcpu_set_reg
  by_cases hn : n.val < 31
  · rw [dif_pos hn]
    by_cases hr : r.val = n.val
    · have hsame : r = ⟨n.val, hn⟩ := Fin.ext hr
      rw [if_pos hr, hsame]
      exact Function.update_self ..
    · have hother : r ≠ ⟨n.val, hn⟩ := fun h => hr (congrArg Fin.val h)
      rw [if_neg hr]
      exact Function.update_of_ne hother ..
  · -- register 31 is nobody's `Rt`
    rw [dif_neg hn, if_neg (by omega)]

theorem steppedOver_advance (vcpu : Vcpu) : SteppedOver vcpu (advance vcpu) :=
  ⟨rfl, rfl, rfl, rfl⟩

theorem steppedOver_set_reg (vcpu : Vcpu) (n : Fin 32) (val : UInt64) :
    SteppedOver vcpu (advance (vcpu_set_reg vcpu n val)) := by
  unfold vcpu_set_reg
  split <;> exact ⟨rfl, rfl, rfl, rfl⟩

section Cases

variable {s : State} {c : Fin 12}

theorem hook_forward (h : storage (sys_reg_params s.vcpu) = none) :
    kvm_handle_sys_reg_hook s = .forward s := by
  simp only [kvm_handle_sys_reg_hook, h]

theorem hook_read (h : storage (sys_reg_params s.vcpu) = some c)
    (hread : (sys_reg_params s.vcpu).is_write = false) :
    kvm_handle_sys_reg_hook s = .handled 1 { s with
      vcpu := advance (vcpu_set_reg s.vcpu (kvm_vcpu_sys_get_rt s.vcpu) (s.custom_cpregs c)) } := by
  simp only [kvm_handle_sys_reg_hook, h, hread, Bool.not_false, if_true]

theorem hook_write (h : storage (sys_reg_params s.vcpu) = some c)
    (hwrite : (sys_reg_params s.vcpu).is_write = true) :
    kvm_handle_sys_reg_hook s = .handled 1 { s with
      vcpu := advance s.vcpu
      custom_cpregs := Function.update s.custom_cpregs c (sys_reg_params s.vcpu).regval } := by
  simp only [kvm_handle_sys_reg_hook, h, hwrite, Bool.not_true, Bool.false_eq_true, if_false]

theorem hvc_forward (h : kvm_vcpu_hvc_get_imm s.vcpu = 0) : kvm_handle_hvc_hook s = .forward s := by
  rw [kvm_handle_hvc_hook, h]
  exact if_neg (not_not_intro rfl)

/-- Six assignments, two of them to `args[0]` and none to `args[5]`. -/
theorem hvc_handled (h : kvm_vcpu_hvc_get_imm s.vcpu ≠ 0) :
    kvm_handle_hvc_hook s = .handled 0 { s with
      run := { exit_reason := KVM_EXIT_HYPERCALL
               nr := (kvm_vcpu_hvc_get_imm s.vcpu).toUInt64
               args := ![vcpu_get_reg s.vcpu 5, vcpu_get_reg s.vcpu 1, vcpu_get_reg s.vcpu 2,
                 vcpu_get_reg s.vcpu 3, vcpu_get_reg s.vcpu 4, s.run.args 5] } } := by
  refine (if_pos h).trans ?_
  congr 3
  funext k
  fin_cases k <;> rfl

end Cases

/-- System register accesses are forwarded untouched or handled completely. -/
theorem kvm_handle_sys_reg_hook_handled (s : State) :
    SysRegHandled s (kvm_handle_sys_reg_hook s) := by
  unfold SysRegHandled
  cases hstorage : storage (sys_reg_params s.vcpu) with
  | none => exact hook_forward hstorage
  | some c =>
      cases hwrite : (sys_reg_params s.vcpu).is_write with
      | false =>
          refine ⟨_, hook_read hstorage hwrite, steppedOver_set_reg .., rfl, ?_⟩
          exact ⟨rfl, regs_vcpu_set_reg s.vcpu _ _⟩
      | true => exact ⟨_, hook_write hstorage hwrite, steppedOver_advance s.vcpu, rfl, rfl, rfl⟩

/-- **What exits get right.** An exit is forwarded untouched or handled completely,
except that the hypercall record is right only if `x0` and `x5` are the same and `args[5]`
happens to hold `x5` already. -/
theorem handled_iff (t : Trap) (s : State) :
    Handled t s (hook t s) ↔ (t = .hvc → kvm_vcpu_hvc_get_imm s.vcpu ≠ 0 →
      vcpu_get_reg s.vcpu 0 = vcpu_get_reg s.vcpu 5 ∧ s.run.args 5 = vcpu_get_reg s.vcpu 5) := by
  cases t with
  | sys_reg => exact iff_of_true (kvm_handle_sys_reg_hook_handled s) fun h => nomatch h
  | hvc =>
      show HvcHandled s (kvm_handle_hvc_hook s) ↔ _
      rw [HvcHandled]
      by_cases himm : kvm_vcpu_hvc_get_imm s.vcpu = 0
      · rw [if_pos himm]
        exact iff_of_true (hvc_forward himm) fun _ h => absurd himm h
      · rw [if_neg himm, hvc_handled himm]
        constructor
        · rintro ⟨run, hexit, hrun⟩ - -
          obtain rfl : _ = run := congrArg State.run (Exit.handled.inj hexit).2
          exact ⟨(hrun.args 0).symm, hrun.args 5⟩
        · intro h
          obtain ⟨h0, h5⟩ := h rfl himm
          refine ⟨_, rfl, rfl, rfl, fun k => ?_⟩
          fin_cases k
          exacts [h0.symm, rfl, rfl, rfl, rfl, h5]

/-- A hypercall of number 1 with `x0` to `x5` from 0 to 5. -/
def sixArguments : State where
  vcpu :=
    { regs := { regs := fun r => UInt64.ofNat r.val, sp := 0, pc := 0, pstate := 0 }
      esr_el2 := 1 }
  run := { exit_reason := 0, nr := 0, args := fun _ => 0 }
  custom_cpregs := fun _ => 0

/-- User space does not see `x0`, and `args[5]` is what it was. -/
theorem not_handled_sixArguments : ¬ Handled .hvc sixArguments (hook .hvc sixArguments) := by
  have himm : kvm_vcpu_hvc_get_imm sixArguments.vcpu ≠ 0 := by decide
  rw [Handled, HvcHandled, if_neg himm, hook, hvc_handled himm]
  rintro ⟨run, hexit, hrun⟩
  obtain rfl : _ = run := congrArg State.run (Exit.handled.inj hexit).2
  have hzero : vcpu_get_reg sixArguments.vcpu 5 = vcpu_get_reg sixArguments.vcpu 0 := hrun.args 0
  exact absurd hzero (by decide)

end XnuQemuTools.Kvm

/-
Loading and unloading the kernel module (`xnu-kvm-lkm/xnu-kvm.c`), while virtual processors
run.

The module looks up the table of exit handlers of KVM, keeps two of its entries, makes the page
of the table writable by hand and puts its own hooks there. Unloading puts the two entries
back, and then Linux frees the module. Nothing stops the virtual processors meanwhile, so an
exit may come between any two of these steps, and may still be on its way when a later one is
taken.

`exits_transparent` is about every order of steps of one life of the module and any number of
processors: an exit ends in the kernel's own handler for it, with the registers as they were,
or is handled by the hook for it, and only where the hook means to handle it. What makes this
true is that an entry is kept before it is replaced. It does not keep a processor from being
in a hook when the hook's code and the handler it has kept are freed, and `exits_transparent`
says that this is the one way in which a processor gets lost.

`load_sound_iff` and `unload_sound_iff` are about faults. The page that is made writable is
that of the start of the table, which need not be that of the entries. And a load that has
failed is not a load that can be undone: both of its error codes are positive, for which Linux
keeps the module.

Where a step has no answer here, the module faults. Lines for the kernel's log are left out;
`pte_mkwrite` is the kernel's.
-/
import XnuQemuTools.Calls
import XnuQemuTools.Kvm

set_option autoImplicit false

namespace XnuQemuTools.KvmModule

open Calls Calls.Prog Kvm

/-! ## The module -/

/-- An exit handler: a function of the kernel, at its address, or one of the hooks. -/
inductive Fn where
  | kernel (addr : UInt64)
  | hook (t : Trap)
  deriving DecidableEq

/-- `ESR_ELx_EC_HVC64` and `ESR_ELx_EC_SYS64`, the classes of the two exits. -/
def ESR_ELx_EC_HVC64 : Fin 64 := 0x16
def ESR_ELx_EC_SYS64 : Fin 64 := 0x18

/-- The levels of the page table above the last. -/
inductive Level where
  | pgd
  | pud
  | pmd
  deriving DecidableEq

/-- The steps of the module: what it calls, and its accesses to the table of handlers, to the
page table and to its own variables. `orig` is `kvm_handle_hvc_orig` and
`kvm_handle_sys_reg_orig`. -/
inductive LkmOp where
  | kallsyms_lookup_name (name : String)
  | store_arm_exit_handlers (ptr : UInt64)
  | load_arm_exit_handlers
  | load_entry (handlers : UInt64) (ec : Fin 64)
  | store_entry (handlers : UInt64) (ec : Fin 64) (fn : Fn)
  | load_orig (t : Trap)
  | store_orig (t : Trap) (fn : Fn)
  | offset (level : Level) (parent addr : UInt64)
  | is_none (level : Level) (entry : UInt64)
  | is_bad (level : Level) (entry : UInt64)
  | pte_offset_map (pmd addr : UInt64)
  | load_pte (ptep : UInt64)
  | store_pte (ptep pte : UInt64)
  | flush_tlb_all
  | loaded (code : ℤ)
  deriving DecidableEq

/-- What each of them answers. -/
abbrev LkmRes : LkmOp → Type
  | .kallsyms_lookup_name _ => UInt64
  | .load_arm_exit_handlers => UInt64
  | .load_entry _ _ => Fn
  | .load_orig _ => Fn
  | .offset _ _ _ => UInt64
  | .is_none _ _ => Bool
  | .is_bad _ _ => Bool
  | .pte_offset_map _ _ => UInt64
  | .load_pte _ => UInt64
  | _ => Unit

/-- A piece of the module. -/
abbrev LkmProg : Type → Type := Prog LkmOp LkmRes

/-- One level of the walk: `goto out` if there is no entry. -/
def walk (level : Level) (parent addr : UInt64) (rest : UInt64 → LkmProg ℤ) : LkmProg ℤ := do
  let entry ← perform (LkmOp.offset level parent addr)
  let none ← perform (LkmOp.is_none level entry)
  if none then return 1
  else
    let bad ← perform (LkmOp.is_bad level entry)
    if bad then return 1 else rest entry

/-- `__pgprot((_AT(pteval_t, 1) << 7))`: the bit that makes a page read-only. -/
def PTE_RDONLY : UInt64 := 0x80

section Module

variable (pte_mkwrite : UInt64 → UInt64)

/-- `disable_protection`. -/
def disable_protection (addr : UInt64) : LkmProg ℤ := do
  let init_mm ← perform (LkmOp.kallsyms_lookup_name "init_mm")
  walk .pgd init_mm addr fun pgd => walk .pud pgd addr fun pud => walk .pmd pud addr fun pmd => do
    let ptep ← perform (LkmOp.pte_offset_map pmd addr)
    if ptep = 0 then return 1
    else
      let pte ← perform (LkmOp.load_pte ptep)
      perform (LkmOp.store_pte ptep (pte_mkwrite pte &&& ~~~PTE_RDONLY))
      perform LkmOp.flush_tlb_all
      return 0

/-- The two handlers are kept. -/
def keep_handlers (handlers : UInt64) : LkmProg Unit := do
  let sys_reg ← perform (LkmOp.load_entry handlers ESR_ELx_EC_SYS64)
  perform (LkmOp.store_orig .sys_reg sys_reg)
  let hvc ← perform (LkmOp.load_entry handlers ESR_ELx_EC_HVC64)
  perform (LkmOp.store_orig .hvc hvc)

/-- And replaced. -/
def set_hooks (handlers : UInt64) : LkmProg Unit := do
  perform (LkmOp.store_entry handlers ESR_ELx_EC_SYS64 (.hook .sys_reg))
  perform (LkmOp.store_entry handlers ESR_ELx_EC_HVC64 (.hook .hvc))

/-- `kvm_enhancer_init`. -/
def kvm_enhancer_init : LkmProg ℤ := do
  let handlers ← perform (LkmOp.kallsyms_lookup_name "arm_exit_handlers")
  perform (LkmOp.store_arm_exit_handlers handlers)
  if handlers = 0 then return 1
  else
    keep_handlers handlers
    let failed ← disable_protection pte_mkwrite handlers
    if failed ≠ 0 then return 2
    else
      set_hooks handlers
      return 0

/-- `kvm_enhancer_exit`. -/
def kvm_enhancer_exit : LkmProg Unit := do
  let handlers ← perform LkmOp.load_arm_exit_handlers
  let sys_reg ← perform (LkmOp.load_orig .sys_reg)
  perform (LkmOp.store_entry handlers ESR_ELx_EC_SYS64 sys_reg)
  let hvc ← perform (LkmOp.load_orig .hvc)
  perform (LkmOp.store_entry handlers ESR_ELx_EC_HVC64 hvc)

/-- The module is loaded, and some time after the load has returned it is unloaded. -/
def life : LkmProg Unit := do
  let code ← kvm_enhancer_init pte_mkwrite
  perform (LkmOp.loaded code)
  kvm_enhancer_exit

end Module

/-! ## The kernel around it -/

/-- What the module can change: the table of handlers, the entries of the last level of the
page table (by their addresses) and its own variables. -/
structure Kernel where
  table : Fin 64 → Fn
  pte : UInt64 → UInt64
  arm_exit_handlers : UInt64
  orig : Trap → Fn

/-- What it cannot: where things are. A symbol that is not found is at address `0`. -/
structure Layout where
  symbol : String → UInt64
  PAGE_SHIFT : UInt64
  ptep : UInt64 → UInt64
  ptep_ne : ∀ a, ptep a ≠ 0
  ptep_eq_iff : ∀ a b, ptep a = ptep b ↔ a >>> PAGE_SHIFT = b >>> PAGE_SHIFT

namespace Layout

variable (L : Layout)

/-- The table. -/
def handlers : UInt64 := L.symbol "arm_exit_handlers"

/-- The address of an entry. -/
def entry (ec : Fin 64) : UInt64 := L.handlers + 8 * UInt64.ofNat ec

/-- An entry can be stored to. -/
def Writable (s : Kernel) (ec : Fin 64) : Prop := s.pte (L.ptep (L.entry ec)) &&& PTE_RDONLY = 0

/-- The answer to a step, and what it does. A null pointer and a page that is read-only
have none. -/
def env : Env LkmOp LkmRes Kernel
  | .kallsyms_lookup_name name, s, r, s' => r = L.symbol name ∧ s' = s
  | .store_arm_exit_handlers ptr, s, _, s' => s' = { s with arm_exit_handlers := ptr }
  | .load_arm_exit_handlers, s, r, s' => r = s.arm_exit_handlers ∧ s' = s
  | .load_entry handlers ec, s, r, s' =>
      handlers ≠ 0 ∧ handlers = L.handlers ∧ r = s.table ec ∧ s' = s
  | .store_entry handlers ec fn, s, _, s' =>
      handlers ≠ 0 ∧ handlers = L.handlers ∧ L.Writable s ec
        ∧ s' = { s with table := Function.update s.table ec fn }
  | .load_orig t, s, r, s' => r = s.orig t ∧ s' = s
  | .store_orig t fn, s, _, s' => s' = { s with orig := Function.update s.orig t fn }
  | .offset .pgd mm _, s, _, s' => mm ≠ 0 ∧ s' = s
  | .pte_offset_map _ addr, s, r, s' => (r = 0 ∨ r = L.ptep addr) ∧ s' = s
  | .load_pte ptep, s, r, s' => r = s.pte ptep ∧ s' = s
  | .store_pte ptep pte, s, _, s' => s' = { s with pte := Function.update s.pte ptep pte }
  | _, s, _, s' => s' = s

end Layout

/-- The kernel before the module is loaded. -/
def Kernel.first (table : Fin 64 → UInt64) (pte : UInt64 → UInt64) : Kernel where
  table ec := .kernel (table ec)
  pte := pte
  arm_exit_handlers := 0
  orig _ := .kernel 0

/-! ## The walk -/

section Walk

variable {L : Layout} {I : Option LkmOp → Kernel → Prop} {Q : ℤ → Kernel → Prop} {s : Kernel}

/-- The steps of `disable_protection`. -/
def Walks (L : Layout) : LkmOp → Prop
  | .kallsyms_lookup_name _ => True
  | .offset level parent _ => level = .pgd → parent = L.symbol "init_mm"
  | .is_none _ _ => True
  | .is_bad _ _ => True
  | .pte_offset_map _ _ => True
  | .load_pte _ => True
  | .store_pte _ _ => True
  | .flush_tlb_all => True
  | _ => False

theorem clear_rdonly (pte : UInt64) : pte &&& ~~~PTE_RDONLY &&& PTE_RDONLY = 0 := by
  have hbit : ~~~PTE_RDONLY &&& PTE_RDONLY = 0 := by decide
  rw [UInt64.and_assoc, hbit, UInt64.and_zero]

theorem walk_always {level : Level} {parent addr : UInt64} {rest : UInt64 → LkmProg ℤ}
    (hI : ∀ op, Walks L op → I (some op) s) (hfirst : level = .pgd → parent = L.symbol "init_mm")
    (hfail : I none s ∧ Q 1 s) (hrest : ∀ entry, Always L.env I Q (rest entry) s) :
    Always L.env I Q (walk level parent addr rest) s := by
  have hoffset : ∀ r s', L.env (.offset level parent addr) s r s' → s' = s := by
    cases level with
    | pgd => exact fun _ _ h => h.2
    | pud => exact fun _ _ h => h
    | pmd => exact fun _ _ h => h
  refine ⟨hI _ hfirst, fun entry s' h => ?_⟩
  obtain rfl := hoffset entry s' h
  refine ⟨hI _ trivial, fun none s' h => ?_⟩
  obtain rfl : s' = _ := h
  cases none with
  | true => exact hfail
  | false =>
      refine ⟨hI _ trivial, fun bad s' h => ?_⟩
      obtain rfl : s' = _ := h
      cases bad with
      | true => exact hfail
      | false => exact hrest entry

/-- **`disable_protection`** changes one entry of the page table, that of `addr`, and only if
it returns `0`. -/
theorem disable_protection_always {pte_mkwrite : UInt64 → UInt64} {addr : UInt64}
    (hI : ∀ o pte, (∀ op ∈ o, Walks L op) → I o { s with pte := pte }) (hfail : Q 1 s)
    (hdone : ∀ pte, pte &&& PTE_RDONLY = 0 →
      Q 0 { s with pte := Function.update s.pte (L.ptep addr) pte }) :
    Always L.env I Q (disable_protection pte_mkwrite addr) s := by
  have hsome : ∀ op, Walks L op → I (some op) s := fun op hop =>
    hI (some op) s.pte fun _ h => (Option.some.inj h) ▸ hop
  have hnone : ∀ pte, I none { s with pte := pte } := fun pte => hI none pte fun _ h => nomatch h
  refine ⟨hsome _ trivial, fun init_mm s' h => ?_⟩
  obtain ⟨rfl, rfl⟩ := h
  refine walk_always hsome (fun _ => rfl) ⟨hnone s'.pte, hfail⟩ fun pgd => ?_
  refine walk_always hsome (fun h => nomatch h) ⟨hnone s'.pte, hfail⟩ fun pud => ?_
  refine walk_always hsome (fun h => nomatch h) ⟨hnone s'.pte, hfail⟩ fun pmd => ?_
  refine ⟨hsome _ trivial, fun ptep s' h => ?_⟩
  obtain ⟨hptep, rfl⟩ := h
  show Always _ _ _ (ite _ _ _) _
  by_cases hnull : ptep = 0
  · rw [if_pos hnull]
    exact ⟨hnone _, hfail⟩
  · obtain rfl : ptep = L.ptep addr := hptep.resolve_left hnull
    rw [if_neg hnull]
    refine ⟨hsome _ trivial, fun pte s' h => ?_⟩
    obtain ⟨-, rfl⟩ := h
    refine ⟨hsome _ trivial, fun _ s' h => ?_⟩
    obtain rfl : s' = _ := h
    refine ⟨hI _ _ fun _ h => (Option.some.inj h) ▸ trivial, fun _ s' h => ?_⟩
    obtain rfl : s' = _ := h
    exact ⟨hnone _, hdone _ (clear_rdonly _)⟩

end Walk

/-! ## Loading -/

/-- The class of exits that a hook is for. -/
def ec : Trap → Fin 64
  | .hvc => ESR_ELx_EC_HVC64
  | .sys_reg => ESR_ELx_EC_SYS64

/-- The table with the hooks in it. -/
def hooked (table : Fin 64 → Fn) : Fin 64 → Fn :=
  Function.update (Function.update table ESR_ELx_EC_SYS64 (.hook .sys_reg)) ESR_ELx_EC_HVC64
    (.hook .hvc)

/-- After the two handlers have been kept. -/
def Kernel.kept (s : Kernel) : Kernel := { s with orig := fun t => s.table (ec t) }

/-- What a load that returns `code` leaves. -/
inductive Loaded (L : Layout) (s : Kernel) : ℤ → Kernel → Prop where
  | not_found : L.handlers = 0 → Loaded L s 1 { s with arm_exit_handlers := 0 }
  | write_protected : L.handlers ≠ 0 →
      Loaded L s 2 { s.kept with arm_exit_handlers := L.handlers }
  | hooked {pte : UInt64 → UInt64} : L.handlers ≠ 0 →
      (∀ t, pte (L.ptep (L.entry (ec t))) &&& PTE_RDONLY = 0) →
      Loaded L s 0
        { s.kept with arm_exit_handlers := L.handlers, table := hooked s.table, pte := pte }

/-- `fn` is the kernel's handler for exits of class `e`, or the hook for them, and then the
kernel's handler has been kept. -/
def Right (table : Fin 64 → Fn) (s : Kernel) (e : Fin 64) (fn : Fn) : Prop :=
  fn = table e ∨ ∃ t, ec t = e ∧ fn = .hook t ∧ s.orig t = table e

/-- Every entry is right, and every entry that is stored; what is kept is the kernel's. -/
def Careful (L : Layout) (table : Fin 64 → Fn) (o : Option LkmOp) (s : Kernel) : Prop :=
  (∀ e, Right table s e (s.table e)) ∧ match o with
    | some (.store_orig t fn) => fn = table (ec t)
    | some (.store_entry handlers e fn) =>
        handlers ≠ 0 → handlers = L.handlers → L.Writable s e → Right table s e fn
    | _ => True

section Load

variable {L : Layout} {table : Fin 64 → Fn} {s : Kernel}

theorem keep_handlers_always {handlers : UInt64} {Q : Unit → Kernel → Prop}
    (hQ : Careful L s.table none s.kept → Q () s.kept) :
    Always L.env (Careful L s.table) Q (keep_handlers handlers) s := by
  have hright : ∀ {s' : Kernel}, s'.table = s.table → ∀ e, Right s.table s' e (s'.table e) :=
    fun htable e => .inl (congrFun htable e)
  refine ⟨⟨hright rfl, trivial⟩, fun sys_reg s₁ h => ?_⟩
  obtain ⟨-, -, rfl, rfl⟩ := h
  refine ⟨⟨hright rfl, rfl⟩, fun _ s₂ h => ?_⟩
  obtain rfl : s₂ = _ := h
  refine ⟨⟨hright rfl, trivial⟩, fun hvc s₃ h => ?_⟩
  obtain ⟨-, -, rfl, rfl⟩ := h
  refine ⟨⟨hright rfl, rfl⟩, fun _ s₄ h => ?_⟩
  have hkept : s₄ = s₁.kept := by
    refine Eq.trans h (congrArg (Kernel.mk s₁.table s₁.pte s₁.arm_exit_handlers) (funext fun t => ?_))
    cases t <;> rfl
  subst hkept
  exact ⟨⟨hright rfl, trivial⟩, hQ ⟨hright rfl, trivial⟩⟩

theorem right_table (e : Fin 64) : Right s.table s e (s.table e) := .inl rfl

/-- The hooks are right once the handlers are kept. -/
theorem right_hook (h : ∀ t, s.orig t = table (ec t)) (t : Trap) :
    Right table s (ec t) (.hook t) :=
  .inr ⟨t, rfl, rfl, h t⟩

theorem right_update {e : Fin 64} {fn : Fn} (h : ∀ e, Right table s e (s.table e))
    (hfn : Right table s e fn) :
    ∀ e', Right table { s with table := Function.update s.table e fn } e'
      (Function.update s.table e fn e') := by
  intro e'
  by_cases he : e' = e
  · subst he
    rw [Function.update_self]
    exact hfn
  · rw [Function.update_of_ne he]
    exact h e'

theorem store_entry_always {α : Type} {handlers : UInt64} {e : Fin 64} {fn : Fn}
    {k : Unit → LkmProg α} {Q : α → Kernel → Prop} (hright : ∀ e, Right table s e (s.table e))
    (hfn : handlers ≠ 0 → handlers = L.handlers → L.Writable s e → Right table s e fn)
    (hk : L.Writable s e → Always L.env (Careful L table) Q (k ())
      { s with table := Function.update s.table e fn }) :
    Always L.env (Careful L table) Q (call (.store_entry handlers e fn) k) s := by
  refine ⟨⟨hright, hfn⟩, fun _ s' h => ?_⟩
  obtain ⟨-, -, hwritable, rfl⟩ := h
  exact hk hwritable

theorem set_hooks_always {handlers : UInt64} {Q : Unit → Kernel → Prop}
    (horig : ∀ t, s.orig t = s.table (ec t))
    (hQ : (∀ t, L.Writable s (ec t)) → Careful L s.table none { s with table := hooked s.table } →
      Q () { s with table := hooked s.table }) :
    Always L.env (Careful L s.table) Q (set_hooks handlers) s := by
  have hsys := right_update right_table (right_hook horig .sys_reg)
  refine store_entry_always right_table (fun _ _ _ => right_hook horig .sys_reg) fun hw => ?_
  have hhvc := right_update hsys (right_hook horig .hvc)
  refine store_entry_always hsys (fun _ _ _ => right_hook horig .hvc) fun hw' => ?_
  refine ⟨⟨hhvc, trivial⟩, hQ (fun t => ?_) ⟨hhvc, trivial⟩⟩
  cases t with
  | hvc => exact hw'
  | sys_reg => exact hw

theorem Walks.careful {o : Option LkmOp} (ho : ∀ op ∈ o, Walks L op)
    (hright : ∀ e, Right table s e (s.table e)) : Careful L table o s := by
  refine ⟨hright, ?_⟩
  cases o with
  | none => trivial
  | some op =>
      have hop := ho op rfl
      cases op <;> trivial

/-- **Loading** ends in one of three ways. -/
theorem kvm_enhancer_init_always {pte_mkwrite : UInt64 → UInt64} {Q : ℤ → Kernel → Prop}
    (hQ : ∀ code s', Loaded L s code s' → Careful L s.table none s' → Q code s') :
    Always L.env (Careful L s.table) Q (kvm_enhancer_init pte_mkwrite) s := by
  have hright : ∀ {s' : Kernel}, s'.table = s.table → ∀ e, Right s.table s' e (s'.table e) :=
    fun htable e => .inl (congrFun htable e)
  refine ⟨⟨hright rfl, trivial⟩, fun handlers s₁ h => ?_⟩
  obtain ⟨rfl, rfl⟩ := h
  refine ⟨⟨hright rfl, trivial⟩, fun _ s₂ h => ?_⟩
  obtain rfl : s₂ = _ := h
  show Always _ _ _ (ite _ _ _) _
  by_cases hnull : L.symbol "arm_exit_handlers" = 0
  · rw [if_pos hnull, hnull]
    exact ⟨⟨hright rfl, trivial⟩, hQ 1 _ (.not_found hnull) ⟨hright rfl, trivial⟩⟩
  rw [if_neg hnull]
  refine always_bind _ _ _ (keep_handlers_always fun _ => ?_)
  refine always_bind _ _ _ (disable_protection_always
    (fun o pte ho => Walks.careful ho (hright rfl)) ?_ fun pte hpte => ?_)
  · exact ⟨⟨hright rfl, trivial⟩, hQ 2 _ (.write_protected hnull) ⟨hright rfl, trivial⟩⟩
  · refine always_bind _ _ _ (set_hooks_always (fun t => rfl) fun hw hcareful => ?_)
    exact ⟨hcareful, hQ 0 _ (.hooked hnull hw) hcareful⟩

/-- Two entries put back. -/
theorem put_back {changed : Fin 64 → Fn} {f g : Fn} (hf : f = table ESR_ELx_EC_SYS64)
    (hg : g = table ESR_ELx_EC_HVC64) (hother : ∀ e, (∀ t, ec t ≠ e) → changed e = table e) :
    Function.update (Function.update changed ESR_ELx_EC_SYS64 f) ESR_ELx_EC_HVC64 g = table := by
  funext e
  by_cases hhvc : e = ESR_ELx_EC_HVC64
  · rw [hhvc, Function.update_self, hg]
  rw [Function.update_of_ne hhvc]
  by_cases hsys : e = ESR_ELx_EC_SYS64
  · rw [hsys, Function.update_self, hf]
  rw [Function.update_of_ne hsys]
  refine hother e fun t => ?_
  cases t with
  | hvc => exact Ne.symm hhvc
  | sys_reg => exact Ne.symm hsys

/-- The handlers that are kept are put back. -/
theorem restore_always {s' : Kernel} {Q : Unit → Kernel → Prop}
    (hright : ∀ e, Right s.table s' e (s'.table e)) (horig : ∀ t, s'.orig t = s.table (ec t))
    (hother : ∀ e, (∀ t, ec t ≠ e) → s'.table e = s.table e)
    (hQ : ∀ s'', s''.table = s.table → Q () s'') :
    Always L.env (Careful L s.table) Q kvm_enhancer_exit s' := by
  refine ⟨⟨hright, trivial⟩, fun handlers s₁ h => ?_⟩
  obtain ⟨rfl, rfl⟩ := h
  refine ⟨⟨hright, trivial⟩, fun sys_reg s₂ h => ?_⟩
  obtain ⟨rfl, rfl⟩ := h
  have hsys := right_update hright (.inl (horig .sys_reg))
  refine store_entry_always hright (fun _ _ _ => .inl (horig .sys_reg)) fun _ => ?_
  refine ⟨⟨hsys, trivial⟩, fun hvc s₃ h => ?_⟩
  obtain ⟨rfl, rfl⟩ := h
  have hhvc := right_update hsys (.inl (horig .hvc))
  refine store_entry_always hsys (fun _ _ _ => .inl (horig .hvc)) fun _ => ?_
  exact ⟨⟨hhvc, trivial⟩, hQ _ (put_back (horig .sys_reg) (horig .hvc) hother)⟩

/-- **Unloading** puts the table back, or faults. -/
theorem kvm_enhancer_exit_always {code : ℤ} {s' : Kernel} {Q : Unit → Kernel → Prop}
    (hloaded : Loaded L s code s') (hcareful : Careful L s.table none s')
    (hQ : ∀ s'', s''.table = s.table → Q () s'') :
    Always L.env (Careful L s.table) Q kvm_enhancer_exit s' := by
  cases hloaded with
  | not_found hnull =>
      refine ⟨⟨right_table, trivial⟩, fun handlers s₁ h => ?_⟩
      obtain ⟨rfl, rfl⟩ := h
      refine ⟨⟨right_table, trivial⟩, fun sys_reg s₂ h => ?_⟩
      obtain ⟨rfl, rfl⟩ := h
      -- the pointer is null, so the first store faults
      exact ⟨⟨right_table, fun h => absurd rfl h⟩, fun _ _ h => absurd rfl h.1⟩
  | write_protected hfound => exact restore_always hcareful.1 (fun _ => rfl) (fun _ _ => rfl) hQ
  | hooked hfound hwritable =>
      refine restore_always hcareful.1 (fun _ => rfl) (fun e he => ?_) hQ
      refine (Function.update_of_ne (Ne.symm (he .hvc)) ..).trans ?_
      exact Function.update_of_ne (Ne.symm (he .sys_reg)) ..

/-- One life of the module. -/
theorem life_always {pte_mkwrite : UInt64 → UInt64} :
    Always L.env (Careful L s.table) (fun _ s' => s'.table = s.table) (life pte_mkwrite) s := by
  refine always_bind _ _ _ (kvm_enhancer_init_always fun code s' hloaded hcareful => ?_)
  refine ⟨⟨hcareful.1, trivial⟩, fun _ s₁ h => ?_⟩
  obtain rfl : s₁ = _ := h
  exact kvm_enhancer_exit_always hloaded hcareful fun _ h => h

end Load

/-! ## The processors -/

/-- An exit: its class, and the state of the processor. -/
structure Trapped where
  ec : Fin 64
  vcpu : Vcpu
  run : Run

/-- An `hvc` call that is the kernel's business, of a processor with all registers zero. -/
def hvc0 : Trapped where
  ec := ESR_ELx_EC_HVC64
  vcpu := { regs := { regs := fun _ => 0, sp := 0, pc := 0, pstate := 0 }, esr_el2 := 0 }
  run := { exit_reason := 0, nr := 0, args := fun _ => 0 }

/-- Where a virtual processor is: in the guest, at the start of a handler, in a hook that is
about to call the handler it has replaced, in that handler and with the hook to return to, or
at the end of a hook that has handled the exit. `x` is the exit that it is there for. -/
inductive Cpu where
  | guest
  | calling (x : Trapped) (fn : Fn) (vcpu : Vcpu) (run : Run)
  | forwarding (x : Trapped) (t : Trap) (vcpu : Vcpu) (run : Run)
  | called (x : Trapped) (fn : Fn) (vcpu : Vcpu) (run : Run)
  | handled (x : Trapped) (code : ℤ) (vcpu : Vcpu) (run : Run)

/-- The processor is in a hook, or has to return to one. -/
def Cpu.InModule : Cpu → Prop
  | .guest => False
  | .calling _ (.kernel _) _ _ => False
  | .calling _ (.hook _) _ _ => True
  | .forwarding _ _ _ _ => True
  | .called _ _ _ _ => True
  | .handled _ _ _ _ => True

section Processors

variable {C : Type} [DecidableEq C]

/-- The processors, the module (what is left of it to run, and whether its code and variables
have been freed) and what they share. -/
structure System (C : Type) where
  kernel : Kernel
  custom_cpregs : Cells
  module : LkmProg Unit
  freed : Bool
  cpu : C → Cpu

/-- A processor moves on. -/
def System.at (m : System C) (c : C) (cpu : Cpu) : System C :=
  { m with cpu := Function.update m.cpu c cpu }

/-- One step of a processor. In a hook it needs the module. The call at the end of a hook may
be compiled as a jump, which leaves no hook to return to. -/
inductive Turn (m : System C) (c : C) : System C → Prop where
  | exits (x : Trapped) (hcpu : m.cpu c = .guest) :
      Turn m c (m.at c (.calling x (m.kernel.table x.ec) x.vcpu x.run))
  | handle {x : Trapped} {t : Trap} {vcpu : Vcpu} {run : Run} {code : ℤ} {s : State}
      (hlive : m.freed = false) (hcpu : m.cpu c = .calling x (.hook t) vcpu run)
      (hhook : hook t ⟨vcpu, run, m.custom_cpregs⟩ = .handled code s) :
      Turn m c { m.at c (.handled x code s.vcpu s.run) with custom_cpregs := s.custom_cpregs }
  | forward {x : Trapped} {t : Trap} {vcpu : Vcpu} {run : Run} {s : State}
      (hlive : m.freed = false) (hcpu : m.cpu c = .calling x (.hook t) vcpu run)
      (hhook : hook t ⟨vcpu, run, m.custom_cpregs⟩ = .forward s) :
      Turn m c { m.at c (.forwarding x t s.vcpu s.run) with custom_cpregs := s.custom_cpregs }
  | call_orig {x : Trapped} {t : Trap} {vcpu : Vcpu} {run : Run} (hlive : m.freed = false)
      (hcpu : m.cpu c = .forwarding x t vcpu run) :
      Turn m c (m.at c (.called x (m.kernel.orig t) vcpu run))
  | jump_orig {x : Trapped} {t : Trap} {vcpu : Vcpu} {run : Run} (hlive : m.freed = false)
      (hcpu : m.cpu c = .forwarding x t vcpu run) :
      Turn m c (m.at c (.calling x (m.kernel.orig t) vcpu run))
  | back {x : Trapped} {addr : UInt64} {vcpu : Vcpu} {run : Run} (hlive : m.freed = false)
      (hcpu : m.cpu c = .called x (.kernel addr) vcpu run) : Turn m c (m.at c .guest)
  | resume {x : Trapped} {addr : UInt64} {vcpu : Vcpu} {run : Run}
      (hcpu : m.cpu c = .calling x (.kernel addr) vcpu run) : Turn m c (m.at c .guest)
  | leave {x : Trapped} {code : ℤ} {vcpu : Vcpu} {run : Run} (hlive : m.freed = false)
      (hcpu : m.cpu c = .handled x code vcpu run) : Turn m c (m.at c .guest)

/-- The processor is lost: where it is, there is nothing to run. -/
def Lost (m : System C) (c : C) : Prop := ¬ ∃ m', Turn m c m'

/-- One step of the module, of Linux, which frees it some time after it has returned from
`kvm_enhancer_exit`, or of a processor. -/
inductive Step (L : Layout) (m : System C) : System C → Prop where
  | module {op : LkmOp} {k : LkmRes op → LkmProg Unit} {r : LkmRes op} {kernel : Kernel}
      (hmodule : m.module = call op k) (henv : L.env op m.kernel r kernel) :
      Step L m { m with kernel := kernel, module := k r }
  | free (hmodule : m.module = ret ()) : Step L m { m with freed := true }
  | turn {c : C} {m' : System C} (hturn : Turn m c m') : Step L m m'

/-- The processors are in the guest, and the module has not been loaded. -/
def System.first (pte_mkwrite : UInt64 → UInt64) (table : Fin 64 → UInt64) (pte : UInt64 → UInt64) :
    System C where
  kernel := Kernel.first table pte
  custom_cpregs _ := 0
  module := life pte_mkwrite
  freed := false
  cpu _ := .guest

/-- What a processor is doing is right for the exit that it is there for. -/
def Fits (table : Fin 64 → Fn) (s : Kernel) : Cpu → Prop
  | .guest => True
  | .calling x fn vcpu run => vcpu = x.vcpu ∧ run = x.run ∧ Right table s x.ec fn
  | .forwarding x t vcpu run => vcpu = x.vcpu ∧ run = x.run ∧ ec t = x.ec ∧ s.orig t = table x.ec
  | .called x fn vcpu run => vcpu = x.vcpu ∧ run = x.run ∧ fn = table x.ec
  | .handled x code vcpu run => ∃ t cells s', ec t = x.ec
      ∧ hook t ⟨x.vcpu, x.run, cells⟩ = .handled code s' ∧ vcpu = s'.vcpu ∧ run = s'.run

/-- The invariant. -/
structure Inv (L : Layout) (table : Fin 64 → Fn) (m : System C) : Prop where
  module : Always L.env (Careful L table) (fun _ s => s.table = table) m.module m.kernel
  freed : m.freed = true → m.module = ret ()
  cpu : ∀ c, Fits table m.kernel (m.cpu c)

variable {L : Layout} {table : Fin 64 → Fn}

/-- A hook forwards the state as it was. -/
theorem hook_forward_eq {t : Trap} {s s' : State} (h : hook t s = .forward s') : s' = s := by
  cases t with
  | hvc =>
      by_cases himm : kvm_vcpu_hvc_get_imm s.vcpu = 0
      · exact (Exit.forward.inj ((hvc_forward himm).symm.trans h)).symm
      · exact nomatch (hvc_handled himm).symm.trans h
  | sys_reg =>
      cases hstorage : storage (sys_reg_params s.vcpu) with
      | none => exact (Exit.forward.inj ((hook_forward hstorage).symm.trans h)).symm
      | some c =>
          cases hwrite : (sys_reg_params s.vcpu).is_write with
          | false => exact nomatch (hook_read hstorage hwrite).symm.trans h
          | true => exact nomatch (hook_write hstorage hwrite).symm.trans h

/-- What has been kept stays. -/
theorem orig_stays {op : LkmOp} {s s' : Kernel} {r : LkmRes op} {t : Trap}
    (hcareful : Careful L table (some op) s) (henv : L.env op s r s')
    (horig : s.orig t = table (ec t)) : s'.orig t = table (ec t) := by
  cases op with
  | store_orig t' fn =>
      obtain rfl : s' = _ := henv
      by_cases ht : t = t'
      · subst ht
        exact (Function.update_self ..).trans hcareful.2
      · exact (Function.update_of_ne ht ..).trans horig
  | store_entry handlers e fn =>
      obtain ⟨-, -, -, rfl⟩ := henv
      exact horig
  | load_entry handlers e =>
      obtain ⟨-, -, -, rfl⟩ := henv
      exact horig
  | offset level parent addr =>
      cases level with
      | pgd =>
          obtain ⟨-, rfl⟩ := henv
          exact horig
      | pud =>
          obtain rfl : s' = _ := henv
          exact horig
      | pmd =>
          obtain rfl : s' = _ := henv
          exact horig
  | kallsyms_lookup_name name => exact henv.2 ▸ horig
  | load_arm_exit_handlers => exact henv.2 ▸ horig
  | load_orig t' => exact henv.2 ▸ horig
  | pte_offset_map pmd addr => exact henv.2 ▸ horig
  | load_pte ptep => exact henv.2 ▸ horig
  | _ =>
      obtain rfl : s' = _ := henv
      exact horig

theorem Fits.stays {s s' : Kernel} (horig : ∀ t, s.orig t = table (ec t) → s'.orig t = table (ec t))
    {cpu : Cpu} (h : Fits table s cpu) : Fits table s' cpu := by
  cases cpu with
  | guest => trivial
  | calling x fn vcpu run =>
      obtain ⟨hvcpu, hrun, hright⟩ := h
      refine ⟨hvcpu, hrun, hright.imp_right ?_⟩
      rintro ⟨t, hec, hfn, hkept⟩
      exact ⟨t, hec, hfn, hec ▸ horig t (hec ▸ hkept)⟩
  | forwarding x t vcpu run =>
      obtain ⟨hvcpu, hrun, hec, hkept⟩ := h
      exact ⟨hvcpu, hrun, hec, hec ▸ horig t (hec ▸ hkept)⟩
  | called x fn vcpu run => exact h
  | handled x code vcpu run => exact h

theorem Inv.at {m : System C} (h : Inv L table m) {c : C} {cpu : Cpu}
    (hcpu : Fits table m.kernel cpu) : Inv L table (m.at c cpu) := by
  refine ⟨h.module, h.freed, fun d => ?_⟩
  show Fits table m.kernel (Function.update m.cpu c cpu d)
  by_cases hd : d = c
  · subst hd
    rw [Function.update_self]
    exact hcpu
  · rw [Function.update_of_ne hd]
    exact h.cpu d

/-- A processor that is in a hook is in the one for its exit. -/
theorem Fits.hook {s : Kernel} (htable : ∀ e t, table e ≠ .hook t) {x : Trapped} {t : Trap}
    {vcpu : Vcpu} {run : Run} (h : Fits table s (.calling x (.hook t) vcpu run)) :
    vcpu = x.vcpu ∧ run = x.run ∧ ec t = x.ec ∧ s.orig t = table x.ec := by
  obtain ⟨hvcpu, hrun, hright⟩ := h
  rcases hright with heq | ⟨t', hec, hfn, hkept⟩
  · exact absurd heq.symm (htable x.ec t)
  · obtain rfl := Fn.hook.inj hfn
    exact ⟨hvcpu, hrun, hec, hkept⟩

/-- Each step of a processor keeps the invariant. -/
theorem Inv.turn (htable : ∀ e t, table e ≠ .hook t) {m m' : System C} (h : Inv L table m) {c : C}
    (hturn : Turn m c m') : Inv L table m' := by
  cases hturn with
  | exits x hcpu => exact h.at ⟨rfl, rfl, h.module.here.1 x.ec⟩
  | @handle x t vcpu run code s _ hcpu hhook =>
      obtain ⟨rfl, rfl, hec, -⟩ := (hcpu ▸ h.cpu c).hook htable
      have hthere : Inv L table (m.at c (.handled x code s.vcpu s.run)) :=
        h.at ⟨t, m.custom_cpregs, s, hec, hhook, rfl, rfl⟩
      exact ⟨hthere.module, hthere.freed, hthere.cpu⟩
  | @forward x t vcpu run s _ hcpu hhook =>
      obtain ⟨hvcpu, hrun, hec, hkept⟩ := (hcpu ▸ h.cpu c).hook htable
      obtain rfl := hook_forward_eq hhook
      have hthere : Inv L table (m.at c (.forwarding x t vcpu run)) :=
        h.at ⟨hvcpu, hrun, hec, hkept⟩
      exact ⟨hthere.module, hthere.freed, hthere.cpu⟩
  | @call_orig x t vcpu run _ hcpu =>
      obtain ⟨hvcpu, hrun, -, hkept⟩ : Fits table m.kernel (.forwarding x t vcpu run) :=
        hcpu ▸ h.cpu c
      exact h.at ⟨hvcpu, hrun, hkept⟩
  | @jump_orig x t vcpu run _ hcpu =>
      obtain ⟨hvcpu, hrun, -, hkept⟩ : Fits table m.kernel (.forwarding x t vcpu run) :=
        hcpu ▸ h.cpu c
      exact h.at ⟨hvcpu, hrun, .inl hkept⟩
  | back _ hcpu => exact h.at trivial
  | resume hcpu => exact h.at trivial
  | leave _ hcpu => exact h.at trivial

/-- Each step keeps the invariant. -/
theorem Inv.step (htable : ∀ e t, table e ≠ .hook t) {m m' : System C} (h : Inv L table m)
    (hstep : Step L m m') : Inv L table m' := by
  cases hstep with
  | @module op k r kernel hmodule henv =>
      have hcall := h.module
      rw [hmodule] at hcall
      refine ⟨hcall.2 r kernel henv, fun hfreed => ?_, fun c => ?_⟩
      · exact nomatch hmodule.symm.trans (h.freed hfreed)
      · exact (h.cpu c).stays fun t => orig_stays hcall.1 henv
  | free hmodule => exact ⟨h.module, fun _ => hmodule, h.cpu⟩
  | turn hturn => exact h.turn htable hturn

/-- The invariant holds in every state. -/
theorem Inv.reachable {pte_mkwrite : UInt64 → UInt64} {addr : Fin 64 → UInt64}
    {pte : UInt64 → UInt64} {m : System C}
    (h : Relation.ReflTransGen (Step L) (System.first pte_mkwrite addr pte) m) :
    Inv L (fun e => .kernel (addr e)) m := by
  induction h with
  | refl => exact ⟨life_always, Bool.noConfusion, fun _ => trivial⟩
  | tail _ hstep ih => exact ih.step (fun _ _ => Fn.noConfusion) hstep

/-- Some hook means to handle the exit. -/
def Taken (x : Trapped) : Prop :=
  (x.ec = ESR_ELx_EC_HVC64 ∧ kvm_vcpu_hvc_get_imm x.vcpu ≠ 0)
    ∨ (x.ec = ESR_ELx_EC_SYS64 ∧ storage (sys_reg_params x.vcpu) ≠ none)

theorem taken_of_handled {x : Trapped} {t : Trap} {cells : Cells} {code : ℤ} {s : State}
    (hec : ec t = x.ec) (h : hook t ⟨x.vcpu, x.run, cells⟩ = .handled code s) : Taken x := by
  cases t with
  | hvc =>
      refine .inl ⟨hec.symm, fun himm => ?_⟩
      exact nomatch (hvc_forward (s := ⟨x.vcpu, x.run, cells⟩) himm).symm.trans h
  | sys_reg =>
      refine .inr ⟨hec.symm, fun hstorage => ?_⟩
      exact nomatch (hook_forward (s := ⟨x.vcpu, x.run, cells⟩) hstorage).symm.trans h

/-- What may become of an exit: the kernel's handler for it is called with the state of the
exit, or the hook for it, or the hook has handled it and meant to. -/
def Proper (addr : Fin 64 → UInt64) : Cpu → Prop
  | .guest => True
  | .calling x (.kernel a) vcpu run => a = addr x.ec ∧ vcpu = x.vcpu ∧ run = x.run
  | .calling x (.hook t) vcpu run => ec t = x.ec ∧ vcpu = x.vcpu ∧ run = x.run
  | .forwarding x t vcpu run => ec t = x.ec ∧ vcpu = x.vcpu ∧ run = x.run
  | .called x (.kernel a) vcpu run => a = addr x.ec ∧ vcpu = x.vcpu ∧ run = x.run
  | .called _ (.hook _) _ _ => False
  | .handled x code vcpu run => Taken x ∧ ∃ t cells s, ec t = x.ec
      ∧ hook t ⟨x.vcpu, x.run, cells⟩ = .handled code s ∧ vcpu = s.vcpu ∧ run = s.run

/-- What a processor does for an exit is proper. -/
theorem Fits.proper {addr : Fin 64 → UInt64} {s : Kernel} {cpu : Cpu}
    (h : Fits (fun e => .kernel (addr e)) s cpu) : Proper addr cpu := by
  rcases cpu with _ | ⟨x, a | t, vcpu, run⟩ | ⟨x, t, vcpu, run⟩ | ⟨x, fn, vcpu, run⟩
    | ⟨x, code, vcpu, run⟩
  · trivial
  · obtain ⟨hvcpu, hrun, heq | ⟨t, -, hfn, -⟩⟩ := h
    · exact ⟨Fn.kernel.inj heq, hvcpu, hrun⟩
    · exact nomatch hfn
  · obtain ⟨hvcpu, hrun, hec, -⟩ := h.hook fun _ _ => Fn.noConfusion
    exact ⟨hec, hvcpu, hrun⟩
  · exact ⟨h.2.2.1, h.1, h.2.1⟩
  · obtain ⟨hvcpu, hrun, rfl⟩ := h
    exact ⟨rfl, hvcpu, hrun⟩
  · obtain ⟨t, cells, s, hec, hhook, hstate⟩ := h
    exact ⟨taken_of_handled hec hhook, t, cells, s, hec, hhook, hstate⟩

/-! ### When the module is freed -/

/-- In a module that is freed there is nothing to run. -/
theorem lost_of_freed {m : System C} {c : C} (hfreed : m.freed = true) (hin : (m.cpu c).InModule) :
    Lost m c := by
  have hdead : m.freed ≠ false := by
    rw [hfreed]
    exact Bool.noConfusion
  rintro ⟨m', hturn⟩
  cases hturn with
  | exits x hcpu =>
      rw [hcpu] at hin
      exact hin
  | resume hcpu =>
      rw [hcpu] at hin
      exact hin
  | handle hlive hcpu hhook => exact hdead hlive
  | forward hlive hcpu hhook => exact hdead hlive
  | call_orig hlive hcpu => exact hdead hlive
  | jump_orig hlive hcpu => exact hdead hlive
  | back hlive hcpu => exact hdead hlive
  | leave hlive hcpu => exact hdead hlive

/-- In a module that is there, a processor can go on. -/
theorem turn_of_live {addr : Fin 64 → UInt64} {m : System C} {c : C} (hlive : m.freed = false)
    (hfits : Fits (fun e => .kernel (addr e)) m.kernel (m.cpu c)) : ∃ m', Turn m c m' := by
  rcases hcpu : m.cpu c with _ | ⟨x, a | t, vcpu, run⟩ | ⟨x, t, vcpu, run⟩ | ⟨x, fn, vcpu, run⟩
    | ⟨x, code, vcpu, run⟩
  · exact ⟨_, .exits hvc0 hcpu⟩
  · exact ⟨_, .resume hcpu⟩
  · cases hhook : hook t ⟨vcpu, run, m.custom_cpregs⟩ with
    | handled code s => exact ⟨_, .handle hlive hcpu hhook⟩
    | forward s => exact ⟨_, .forward hlive hcpu hhook⟩
  · exact ⟨_, .call_orig hlive hcpu⟩
  · rw [hcpu] at hfits
    obtain ⟨-, -, rfl⟩ := hfits
    exact ⟨_, .back hlive hcpu⟩
  · exact ⟨_, .leave hlive hcpu⟩

/-- Outside the module, too. -/
theorem turn_of_outside {m : System C} {c : C} (hout : ¬ (m.cpu c).InModule) :
    ∃ m', Turn m c m' := by
  rcases hcpu : m.cpu c with _ | ⟨x, a | t, vcpu, run⟩ | ⟨x, t, vcpu, run⟩ | ⟨x, fn, vcpu, run⟩
    | ⟨x, code, vcpu, run⟩
  · exact ⟨_, .exits hvc0 hcpu⟩
  · exact ⟨_, .resume hcpu⟩
  all_goals
    rw [hcpu] at hout
    exact absurd trivial hout

/-- **Which processors are lost.** -/
theorem lost_iff {addr : Fin 64 → UInt64} {m : System C} (hinv : Inv L (fun e => .kernel (addr e)) m)
    (c : C) : Lost m c ↔ m.freed = true ∧ (m.cpu c).InModule := by
  constructor
  · intro hlost
    refine ⟨?_, of_not_not fun hout => hlost (turn_of_outside hout)⟩
    by_contra hnot
    exact hlost (turn_of_live (Bool.eq_false_iff.mpr hnot) (hinv.cpu c))
  · rintro ⟨hfreed, hin⟩
    exact lost_of_freed hfreed hin

/-- No processor is in the module. -/
def Quiet (m : System C) : Prop := ∀ c, ¬ (m.cpu c).InModule

theorem Quiet.at {m : System C} (h : Quiet m) {c : C} {cpu : Cpu} (hcpu : ¬ cpu.InModule) :
    Quiet (m.at c cpu) := by
  intro d
  show ¬ (Function.update m.cpu c cpu d).InModule
  by_cases hd : d = c
  · subst hd
    rw [Function.update_self]
    exact hcpu
  · rw [Function.update_of_ne hd]
    exact h d

/-- Once the module is freed, no exit gets into it. -/
theorem Quiet.step {addr : Fin 64 → UInt64} {m m' : System C}
    (hinv : Inv L (fun e => .kernel (addr e)) m) (hfreed : m.freed = true) (h : Quiet m)
    (hstep : Step L m m') : m'.freed = true ∧ Quiet m' := by
  cases hstep with
  | module hmodule henv => exact nomatch hmodule.symm.trans (hinv.freed hfreed)
  | free hmodule => exact ⟨rfl, h⟩
  | @turn c _ hturn =>
      -- a processor that is not in the module is in the guest or in a handler of the kernel
      have hout : ∀ cpu, m.cpu c = cpu → ¬ cpu.InModule := fun cpu hcpu => hcpu ▸ h c
      cases hturn with
      | exits x hcpu =>
          have hmodule := hinv.module
          rw [hinv.freed hfreed] at hmodule
          refine ⟨hfreed, h.at fun hin => ?_⟩
          rw [congrFun hmodule.2 x.ec] at hin
          exact hin
      | resume hcpu => exact ⟨hfreed, h.at fun hin => hin⟩
      | handle _ hcpu => exact absurd trivial (hout _ hcpu)
      | forward _ hcpu => exact absurd trivial (hout _ hcpu)
      | call_orig _ hcpu => exact absurd trivial (hout _ hcpu)
      | jump_orig _ hcpu => exact absurd trivial (hout _ hcpu)
      | back _ hcpu => exact absurd trivial (hout _ hcpu)
      | leave _ hcpu => exact absurd trivial (hout _ hcpu)

theorem Quiet.steps {addr : Fin 64 → UInt64} {m m' : System C}
    (hinv : Inv L (fun e => .kernel (addr e)) m) (hfreed : m.freed = true) (h : Quiet m)
    (hsteps : Relation.ReflTransGen (Step L) m m') :
    Inv L (fun e => .kernel (addr e)) m' ∧ m'.freed = true ∧ Quiet m' := by
  induction hsteps with
  | refl => exact ⟨hinv, hfreed, h⟩
  | tail _ hstep ih =>
      obtain ⟨hinv', hfreed', hquiet⟩ := ih
      exact ⟨hinv'.step (fun _ _ => Fn.noConfusion) hstep, hquiet.step hinv' hfreed' hstep⟩

/-- **The module is transparent**, whenever it is loaded and unloaded: exits that it does not
mean to handle get to the kernel's handlers as they were. It never changes another entry of
the table, and in the end none. A processor is lost only in a hook that has been freed, and
none ever is if no processor is in a hook when that happens. -/
theorem exits_transparent {pte_mkwrite : UInt64 → UInt64} {addr : Fin 64 → UInt64}
    {pte : UInt64 → UInt64} {m : System C}
    (h : Relation.ReflTransGen (Step L) (System.first pte_mkwrite addr pte) m) :
    (∀ c, Proper addr (m.cpu c))
      ∧ (∀ e, m.kernel.table e = .kernel (addr e) ∨ ∃ t, ec t = e ∧ m.kernel.table e = .hook t)
      ∧ (m.module = ret () → ∀ e, m.kernel.table e = .kernel (addr e))
      ∧ (∀ c, Lost m c ↔ m.freed = true ∧ (m.cpu c).InModule)
      ∧ (m.freed = true → Quiet m → ∀ m', Relation.ReflTransGen (Step L) m m' → ∀ c, ¬ Lost m' c) := by
  have hinv := Inv.reachable h
  refine ⟨fun c => (hinv.cpu c).proper, fun e => (hinv.module.here.1 e).imp_right ?_,
    fun hend e => ?_, lost_iff hinv, fun hfreed hquiet m' hsteps c hlost => ?_⟩
  · rintro ⟨t, hec, hfn, -⟩
    exact ⟨t, hec, hfn⟩
  · have hmodule := hinv.module
    rw [hend] at hmodule
    exact congrFun hmodule.2 e
  · obtain ⟨hinv', -, hquiet'⟩ := hquiet.steps hinv hfreed hsteps
    exact hquiet' c ((lost_iff hinv' c).mp hlost).2

/-- The module runs on while the processors rest. -/
theorem steps_of_exec {α : Type} {f : Handler LkmOp LkmRes Kernel}
    (hf : ∀ op s r s', f op s = some (r, s') → L.env op s r s') {k : α → LkmProg Unit}
    (p : LkmProg α) {m : System C} {a : α} {s' : Kernel} (hmodule : m.module = p >>= k)
    (hrun : Prog.exec f p m.kernel = some (a, s')) :
    Relation.ReflTransGen (Step L) m { m with kernel := s', module := k a } := by
  induction p generalizing m with
  | ret b =>
      obtain ⟨rfl, rfl⟩ := Prod.mk.inj (Option.some.inj hrun)
      rw [ret_bind] at hmodule
      rw [← hmodule]
  | call op rest ih =>
      obtain ⟨⟨r, s⟩, hop, hrest⟩ := Option.bind_eq_some_iff.mp hrun
      have hstep := Step.module hmodule (hf op m.kernel r s hop)
      exact .head hstep (ih r (m := { m with kernel := s, module := rest r >>= k }) rfl hrest)

end Processors

/-- Answers of a kernel that has all levels of the page table. -/
def Layout.found (L : Layout) : Handler LkmOp LkmRes Kernel
  | .kallsyms_lookup_name name, s => some (L.symbol name, s)
  | .store_arm_exit_handlers ptr, s => some ((), { s with arm_exit_handlers := ptr })
  | .load_arm_exit_handlers, s => some (s.arm_exit_handlers, s)
  | .load_entry handlers e, s =>
      if handlers ≠ 0 ∧ handlers = L.handlers then some (s.table e, s) else none
  | .store_entry handlers e fn, s =>
      if handlers ≠ 0 ∧ handlers = L.handlers ∧ s.pte (L.ptep (L.entry e)) &&& PTE_RDONLY = 0 then
        some ((), { s with table := Function.update s.table e fn })
      else none
  | .load_orig t, s => some (s.orig t, s)
  | .store_orig t fn, s => some ((), { s with orig := Function.update s.orig t fn })
  | .offset level parent _, s => if level = .pgd ∧ parent = 0 then none else some (1, s)
  | .is_none _ _, s => some (false, s)
  | .is_bad _ _, s => some (false, s)
  | .pte_offset_map _ addr, s => some (L.ptep addr, s)
  | .load_pte ptep, s => some (s.pte ptep, s)
  | .store_pte ptep pte, s => some ((), { s with pte := Function.update s.pte ptep pte })
  | .flush_tlb_all, s => some ((), s)
  | .loaded _, s => some ((), s)

theorem Layout.found_env (L : Layout) (op : LkmOp) (s : Kernel) (r : LkmRes op) (s' : Kernel)
    (h : L.found op s = some (r, s')) : L.env op s r s' := by
  cases op with
  | load_entry handlers e =>
      obtain ⟨⟨hnull, htable⟩, hx⟩ := Option.ite_none_right_eq_some.mp h
      obtain ⟨rfl, rfl⟩ := Prod.mk.inj (Option.some.inj hx)
      exact ⟨hnull, htable, rfl, rfl⟩
  | store_entry handlers e fn =>
      obtain ⟨⟨hnull, htable, hw⟩, hx⟩ := Option.ite_none_right_eq_some.mp h
      obtain ⟨rfl, rfl⟩ := Prod.mk.inj (Option.some.inj hx)
      exact ⟨hnull, htable, hw, rfl⟩
  | offset level parent addr =>
      obtain ⟨hparent, hx⟩ := Option.ite_none_left_eq_some.mp h
      obtain ⟨rfl, rfl⟩ := Prod.mk.inj (Option.some.inj hx)
      cases level with
      | pgd => exact ⟨fun hnull => hparent ⟨rfl, hnull⟩, rfl⟩
      | pud => rfl
      | pmd => rfl
  | pte_offset_map pmd addr =>
      obtain ⟨rfl, rfl⟩ := Prod.mk.inj (Option.some.inj h)
      exact ⟨.inr rfl, rfl⟩
  | kallsyms_lookup_name name =>
      obtain ⟨rfl, rfl⟩ := Prod.mk.inj (Option.some.inj h)
      exact ⟨rfl, rfl⟩
  | load_arm_exit_handlers =>
      obtain ⟨rfl, rfl⟩ := Prod.mk.inj (Option.some.inj h)
      exact ⟨rfl, rfl⟩
  | load_orig t =>
      obtain ⟨rfl, rfl⟩ := Prod.mk.inj (Option.some.inj h)
      exact ⟨rfl, rfl⟩
  | load_pte ptep =>
      obtain ⟨rfl, rfl⟩ := Prod.mk.inj (Option.some.inj h)
      exact ⟨rfl, rfl⟩
  | _ => exact (Prod.mk.inj (Option.some.inj h)).2.symm

theorem page_toNat (a : UInt64) : (a >>> 12 + 1).toNat = a.toNat / 4096 + 1 := by
  have hbound := a.toNat_lt
  have hshift : (a >>> 12).toNat = a.toNat / 4096 := by
    rw [UInt64.toNat_shiftRight, Nat.shiftRight_eq_div_pow]
    rfl
  rw [UInt64.toNat_add, hshift]
  refine Nat.mod_eq_of_lt ?_
  simp only [UInt64.reduceToNat]
  omega

/-- Pages have 4096 bytes. -/
def small (handlers : UInt64) : Layout where
  symbol name := if name = "arm_exit_handlers" then handlers else 0x4000
  PAGE_SHIFT := 12
  ptep a := a >>> 12 + 1
  ptep_ne a h := by
    have hzero := congrArg UInt64.toNat h
    rw [page_toNat] at hzero
    exact Nat.succ_ne_zero _ hzero
  ptep_eq_iff a b := UInt64.add_left_inj 1

/-- A processor comes back from the hook before the module is unloaded and freed, and its next
exit gets to the kernel. One that is still in the hook is lost. -/
theorem exits_transparent_unloaded :
    (∃ m : System Unit, (∃ vcpu run, m.cpu () = .calling hvc0 (.kernel 0x916) vcpu run
        ∧ vcpu = hvc0.vcpu ∧ run = hvc0.run)
      ∧ m.freed = true ∧ (∀ e, m.kernel.table e = .kernel (0x900 + UInt64.ofNat e)) ∧ ¬ Lost m ())
      ∧ ∃ m : System Unit, (∃ vcpu run, m.cpu () = .forwarding hvc0 .hvc vcpu run) ∧ Lost m () := by
  have hload := steps_of_exec (C := Unit) (L := small 0x1e00) (small 0x1e00).found_env
    (kvm_enhancer_init id) (m := System.first id (fun e => 0x900 + UInt64.ofNat e) fun _ => 0x80)
    rfl rfl
  have hcall := (hload.tail (.turn (c := ()) (.exits hvc0 rfl))).tail
    (.turn (c := ()) (.forward (t := .hvc) rfl rfl rfl))
  refine ⟨?_, ?_⟩
  · have hback := (hcall.tail (.turn (c := ()) (.call_orig rfl rfl))).tail
      (.turn (c := ()) (.back rfl rfl))
    have hunload := hback.trans
      (steps_of_exec (small 0x1e00).found_env (perform (.loaded 0) >>= fun _ => kvm_enhancer_exit)
        (k := ret) rfl rfl)
    have hrun := (hunload.tail (.free rfl)).tail (.turn (c := ()) (.exits hvc0 rfl))
    obtain ⟨hproper, -, hend, hlost, -⟩ := exits_transparent hrun
    exact ⟨_, ⟨_, _, rfl, (hproper ()).2⟩, rfl, hend rfl, fun h => ((hlost ()).mp h).2⟩
  · have hunload := hcall.trans
      (steps_of_exec (small 0x1e00).found_env (perform (.loaded 0) >>= fun _ => kvm_enhancer_exit)
        (k := ret) rfl rfl)
    have hrun := hunload.tail (.free rfl)
    obtain ⟨-, -, -, hlost, -⟩ := exits_transparent hrun
    exact ⟨_, ⟨_, _, rfl⟩, (hlost ()).mpr ⟨rfl, trivial⟩⟩

/-! ## Faults -/

section Faults

variable {L : Layout} {pte_mkwrite : UInt64 → UInt64} {s : Kernel}

/-- The next step does not fault. -/
def Sound (L : Layout) (o : Option LkmOp) (s : Kernel) : Prop := ∀ op ∈ o, ∃ r s', L.env op s r s'

theorem sound_none (s : Kernel) : Sound L none s := fun _ h => nomatch h

theorem sound_some {op : LkmOp} (r : LkmRes op) {s' : Kernel} (h : L.env op s r s') :
    Sound L (some op) s := by
  intro op' hop
  obtain rfl := Option.some.inj hop
  exact ⟨r, s', h⟩

theorem Walks.sound {o : Option LkmOp} (ho : ∀ op ∈ o, Walks L op)
    (hmm : L.symbol "init_mm" ≠ 0) : Sound L o s := by
  intro op hop
  have hwalks := ho op hop
  cases op with
  | kallsyms_lookup_name name => exact ⟨_, _, rfl, rfl⟩
  | offset level parent addr =>
      cases level with
      | pgd =>
          obtain rfl := hwalks rfl
          exact ⟨(0 : UInt64), s, hmm, rfl⟩
      | pud => exact ⟨(0 : UInt64), s, rfl⟩
      | pmd => exact ⟨(0 : UInt64), s, rfl⟩
  | is_none level entry => exact ⟨false, s, rfl⟩
  | is_bad level entry => exact ⟨false, s, rfl⟩
  | pte_offset_map pmd addr => exact ⟨_, _, .inl rfl, rfl⟩
  | load_pte ptep => exact ⟨_, _, rfl, rfl⟩
  | store_pte ptep pte => exact ⟨(), _, rfl⟩
  | flush_tlb_all => exact ⟨(), s, rfl⟩
  | _ => exact absurd hwalks id

/-- A sound walk may find an entry. -/
theorem walk_sound {level : Level} {parent addr : UInt64} {rest : UInt64 → LkmProg ℤ}
    {Q : ℤ → Kernel → Prop} (h : Always L.env (Sound L) Q (walk level parent addr rest) s) :
    (level = .pgd → parent ≠ 0) ∧ ∃ entry, Always L.env (Sound L) Q (rest entry) s := by
  obtain ⟨entry, s', hoffset⟩ := h.1 _ rfl
  have hnull : level = .pgd → parent ≠ 0 := by
    rintro rfl
    exact hoffset.1
  obtain rfl : s' = s := by
    cases level with
    | pgd => exact hoffset.2
    | pud => exact hoffset
    | pmd => exact hoffset
  exact ⟨hnull, entry, ((h.2 entry s' hoffset).2 false s' rfl).2 false s' rfl⟩

/-- So may a whole walk, and then it changes the entry of `addr`. -/
theorem disable_protection_sound {addr : UInt64} {Q : ℤ → Kernel → Prop}
    (h : Always L.env (Sound L) Q (disable_protection pte_mkwrite addr) s) :
    L.symbol "init_mm" ≠ 0 ∧ ∃ pte, pte &&& PTE_RDONLY = 0
      ∧ Q 0 { s with pte := Function.update s.pte (L.ptep addr) pte } := by
  obtain ⟨hmm, pgd, hpgd⟩ := walk_sound (h.2 _ s ⟨rfl, rfl⟩)
  obtain ⟨-, pud, hpud⟩ := walk_sound hpgd
  obtain ⟨-, pmd, hpmd⟩ := walk_sound hpud
  have hfound : Always _ _ _ (ite _ _ _) _ := hpmd.2 (L.ptep addr) s ⟨.inr rfl, rfl⟩
  rw [if_neg (L.ptep_ne addr)] at hfound
  exact ⟨hmm rfl, _, clear_rdonly _, (((hfound.2 _ s ⟨rfl, rfl⟩).2 () _ rfl).2 () _ rfl).2⟩

theorem keep_handlers_sound (hnull : L.handlers ≠ 0) {Q : Unit → Kernel → Prop}
    (hQ : ∀ orig, Q () { s with orig := orig }) :
    Always L.env (Sound L) Q (keep_handlers L.handlers) s := by
  refine ⟨sound_some _ ⟨hnull, rfl, rfl, rfl⟩, fun sys_reg s₁ h => ?_⟩
  obtain ⟨-, -, rfl, rfl⟩ := h
  refine ⟨sound_some () rfl, fun _ s₂ h => ?_⟩
  obtain rfl : s₂ = _ := h
  refine ⟨sound_some _ ⟨hnull, rfl, rfl, rfl⟩, fun hvc s₃ h => ?_⟩
  obtain ⟨-, -, rfl, rfl⟩ := h
  refine ⟨sound_some () rfl, fun _ s₄ h => ?_⟩
  obtain rfl : s₄ = _ := h
  exact ⟨sound_none _, hQ _⟩

theorem set_hooks_sound :
    Always L.env (Sound L) (fun _ _ => True) (set_hooks L.handlers) s
      ↔ L.handlers ≠ 0 ∧ ∀ t, L.Writable s (ec t) := by
  constructor
  · intro h
    obtain ⟨_, _, hnull, -, hsys, -⟩ := h.1 _ rfl
    obtain ⟨_, _, -, -, hhvc, -⟩ := (h.2 () _ ⟨hnull, rfl, hsys, rfl⟩).1 _ rfl
    refine ⟨hnull, fun t => ?_⟩
    cases t with
    | hvc => exact hhvc
    | sys_reg => exact hsys
  · rintro ⟨hnull, hw⟩
    refine ⟨sound_some () ⟨hnull, rfl, hw .sys_reg, rfl⟩, fun _ s₁ h => ?_⟩
    obtain ⟨-, -, -, rfl⟩ := h
    refine ⟨sound_some () ⟨hnull, rfl, hw .hvc, rfl⟩, fun _ s₂ h => ?_⟩
    exact ⟨sound_none s₂, trivial⟩

/-- An entry can be written to after an entry of the page table has been changed, if it was
that of the entry or if it could be before. -/
theorem writable_update {e : Fin 64} {pte : UInt64} (hpte : pte &&& PTE_RDONLY = 0) :
    L.Writable { s with pte := Function.update s.pte (L.ptep L.handlers) pte } e
      ↔ L.entry e >>> L.PAGE_SHIFT = L.handlers >>> L.PAGE_SHIFT ∨ L.Writable s e := by
  rw [← L.ptep_eq_iff]
  show Function.update s.pte (L.ptep L.handlers) pte (L.ptep (L.entry e)) &&& PTE_RDONLY = 0 ↔ _
  by_cases hpage : L.ptep (L.entry e) = L.ptep L.handlers
  · rw [hpage, Function.update_self]
    exact iff_of_true hpte (.inl rfl)
  · rw [Function.update_of_ne hpage, or_iff_right hpage]
    rfl

/-- **When loading does not fault**: the two entries are on the page of the start of the
table, or can be written to already. -/
theorem load_sound_iff :
    Always L.env (Sound L) (fun _ _ => True) (kvm_enhancer_init pte_mkwrite) s
      ↔ L.handlers = 0 ∨ L.symbol "init_mm" ≠ 0
        ∧ ∀ t, L.entry (ec t) >>> L.PAGE_SHIFT = L.handlers >>> L.PAGE_SHIFT
          ∨ L.Writable s (ec t) := by
  constructor
  · intro h
    by_cases hnull : L.handlers = 0
    · exact .inl hnull
    have hfound : Always _ _ _ (ite (L.handlers = 0) _ _) _ := (h.2 _ _ ⟨rfl, rfl⟩).2 () _ rfl
    rw [if_neg hnull] at hfound
    have hkeep := (((hfound.2 _ _ ⟨hnull, rfl, rfl, rfl⟩).2 () _ rfl).2 _ _
      ⟨hnull, rfl, rfl, rfl⟩).2 () _ rfl
    obtain ⟨hmm, pte, hpte, hset⟩ := disable_protection_sound (Always.of_bind sound_none hkeep)
    have hhooks := set_hooks_sound.mp
      ((Always.of_bind sound_none hset).mono (fun _ _ h => h) fun _ _ _ _ => trivial)
    exact .inr ⟨hmm, fun t => (writable_update hpte).mp (hhooks.2 t)⟩
  · intro h
    refine ⟨sound_some L.handlers ⟨rfl, rfl⟩, fun handlers s₁ h₁ => ?_⟩
    obtain ⟨rfl, rfl⟩ := h₁
    refine ⟨sound_some () rfl, fun _ s₂ h₂ => ?_⟩
    obtain rfl : s₂ = _ := h₂
    show Always _ _ _ (ite (L.handlers = 0) _ _) _
    by_cases hnull : L.handlers = 0
    · rw [if_pos hnull]
      exact ⟨sound_none _, trivial⟩
    obtain ⟨hmm, hpages⟩ := h.resolve_left hnull
    rw [if_neg hnull]
    refine always_bind _ _ _ (keep_handlers_sound hnull fun orig => ?_)
    refine always_bind _ _ _ (disable_protection_always (fun o pte ho => Walks.sound ho hmm) ?_
      fun pte hpte => ?_)
    · exact ⟨sound_none _, trivial⟩
    · refine always_bind _ _ _ (Always.mono (fun _ _ h => h) ?_ (set_hooks_sound.mpr ⟨hnull,
        fun t => (writable_update hpte).mpr (hpages t)⟩))
      exact fun _ _ _ _ => ⟨sound_none _, trivial⟩

/-- **What can be unloaded**: a module whose load has returned `0`, and no other, where the
table could not be written to before. -/
theorem unload_sound_iff (hprotected : ¬ L.Writable s ESR_ELx_EC_SYS64) :
    Always L.env (fun _ _ => True)
      (fun code s' => Always L.env (Sound L) (fun _ _ => True) kvm_enhancer_exit s' ↔ code = 0)
      (kvm_enhancer_init pte_mkwrite) s := by
  refine Always.mono (fun _ _ _ => trivial) (fun _ _ _ h => h)
    (kvm_enhancer_init_always fun code s' hloaded _ => ?_)
  constructor
  · intro h
    have hstore := ((h.2 _ s' ⟨rfl, rfl⟩).2 _ s' ⟨rfl, rfl⟩).1 _ rfl
    obtain ⟨_, _, hnull, -, hwritable, -⟩ := hstore
    cases hloaded with
    | not_found hfound => exact absurd rfl hnull
    | write_protected hfound => exact absurd hwritable hprotected
    | hooked hfound hw => rfl
  · rintro rfl
    cases hloaded with
    | hooked hfound hw =>
        refine ⟨sound_some _ ⟨rfl, rfl⟩, fun handlers s₁ h₁ => ?_⟩
        obtain ⟨rfl, rfl⟩ := h₁
        refine ⟨sound_some _ ⟨rfl, rfl⟩, fun sys_reg s₂ h₂ => ?_⟩
        obtain ⟨-, rfl⟩ := h₂
        refine ⟨sound_some () ⟨hfound, rfl, hw .sys_reg, rfl⟩, fun _ s₃ h₃ => ?_⟩
        obtain ⟨-, -, -, rfl⟩ := h₃
        refine ⟨sound_some _ ⟨rfl, rfl⟩, fun hvc s₄ h₄ => ?_⟩
        obtain ⟨-, rfl⟩ := h₄
        refine ⟨sound_some () ⟨hfound, rfl, hw .hvc, rfl⟩, fun _ s₅ h₅ => ?_⟩
        exact ⟨sound_none _, trivial⟩

end Faults

/-- A page of the table that is read-only when the module is loaded. -/
theorem unload_sound_loaded :
    ∃ s', Prog.exec (small 0x1e00).found (kvm_enhancer_init id)
        (Kernel.first (fun _ => 0x900) fun _ => 0x80) = some (0, s')
      ∧ Always (small 0x1e00).env (Sound (small 0x1e00)) (fun _ _ => True) kvm_enhancer_exit s' := by
  have hprotected : ¬ (small 0x1e00).Writable (Kernel.first (fun _ => 0x900) fun _ => 0x80)
      ESR_ELx_EC_SYS64 := by
    unfold Layout.Writable
    decide
  have hiff := @unload_sound_iff (small 0x1e00) id _ hprotected
  exact ⟨_, rfl, (hiff.exec (small 0x1e00).found_env rfl).mpr rfl⟩

end XnuQemuTools.KvmModule

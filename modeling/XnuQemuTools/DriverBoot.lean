/-
The start of the driver (`aleph_bdev_drv/src/main.c`).

`_start` registers the three classes, waits for two services of the kernel, makes the block
devices, each for its file, and then the framebuffer. It is called from a hook and may be
called more than once.

`World` is what the driver has done to the kernel so far: which mutexes it holds, which classes
are complete, which are in the dictionary, and which objects it has asked for. The kernel
answers as it likes, within reason (`Sensible`), and `boot_devices` says what the calls of the
hook return then: the first has made one device for each file, in order, as `Devices` of
`BlockDevSerial` asks for, and the others have made nothing.

`boot_disciplined` is about every point of every run: the mutexes are taken and given back in
order, the dictionary is only touched under both, a class is made once and only published when
both its tables are in place, no object is allocated before its class is known, and the virtual
calls of the start reach the functions of the kernel's own classes. The code reads the pointers
to the mutexes again for every use and does not test the symbol for a name, so this needs
more of the kernel (`Steady`); a null symbol is taken for a key and nothing is registered, which
the driver does not notice (`boot_null_symbol`).
-/
import XnuQemuTools.DriverClasses
import XnuQemuTools.BlockDevSerial
import XnuQemuTools.Output

set_option autoImplicit false

namespace XnuQemuTools.DriverBoot

open Calls Calls.Prog Output
open BlockDev (SetupOp SetupRes AlephBDevMembers Devices Made)

/-! ## `_start` -/

def NUM_BLOCK_DEVS_MAX : ℕ := 10

/-- The characters of a name, which ends at its end. -/
def chars (s : String) : List UInt8 := s.toList.map fun c => UInt8.ofNat c.toNat

/-- `bdev_prod_name`, `bdev_vendor_name` and `bdev_mutex_name`. -/
structure Names where
  prod_name : List UInt8
  vendor_name : List UInt8
  mutex_name : List UInt8

/-- Before the loop. -/
def Names.first : Names := ⟨chars "0AlephBDev", chars "0Aleph", chars "0AM"⟩

/-- `name[0]++` for all three. -/
def Names.next (names : Names) : Names :=
  ⟨names.prod_name.modify 0 (· + 1), names.vendor_name.modify 0 (· + 1),
    names.mutex_name.modify 0 (· + 1)⟩

/-- `create_new_aleph_bdev`, as a part of this code. -/
def create_bdev (names : Names) (i service : UInt64) : BootProg AlephBDevMembers :=
  interpret (fun op => perform (BootOp.setup op))
    (BlockDev.create_new_aleph_bdev names.prod_name names.vendor_name names.mutex_name i service)

/-- The loop over the block devices, with `n` iterations left. -/
def create_bdevs (service : UInt64) : ℕ → UInt64 → Names → BootProg (List AlephBDevMembers)
  | 0, _, _ => return []
  | n + 1, i, names => do
      let members ← create_bdev names.next i service
      perform (BootOp.IOSleep 1000)
      let rest ← create_bdevs service n (i + 1) names.next
      return members :: rest

/-- `create_new_aleph_fbdev`. -/
def create_new_aleph_fbdev (parent_service : UInt64) : BootProg Unit := do
  let fbdev ← perform (BootOp.allocClassWithName FBDEV_CLASS_NAME)
  unless_null fbdev do
    perform (BootOp.init fbdev)
    unless_null parent_service do
      perform (BootOp.setProperty fbdev "IOUserClientClass" FBUC_CLASS_NAME)
      let _ ← perform (BootOp.attach fbdev parent_service)
      perform (BootOp.registerService fbdev)

/-- `if (NUM_BLOCK_DEVS > NUM_BLOCK_DEVS_MAX) cancel();`, then the rest. -/
def unless_too_many {α : Type} (num_block_devs : ℕ) (rest : BootProg α) : BootProg α :=
  if num_block_devs > NUM_BLOCK_DEVS_MAX then do
    let never ← perform BootOp.cancel
    never.elim
  else rest

/-- What `_start` does once it has set `executed`. -/
def start_once (num_block_devs : ℕ) : BootProg (List AlephBDevMembers) :=
  unless_too_many num_block_devs do
    register_bdev_meta_class
    register_fb_meta_class
    register_fbuc_meta_class
    let match_dict ← perform (BootOp.IOService_serviceMatching "AppleARMPE")
    let service ← perform (BootOp.waitForMatchingService match_dict (-1))
    unless_null service do
      let match_dict_disp ← perform (BootOp.IOService_nameMatching "disp0")
      let service_disp ← perform (BootOp.waitForMatchingService match_dict_disp (-1))
      unless_null service_disp do
        let devices ← create_bdevs service num_block_devs 0 Names.first
        create_new_aleph_fbdev service_disp
        return devices

/-- `_start`, with the members of the devices it has made. -/
def start (num_block_devs : ℕ) : BootProg (List AlephBDevMembers) := do
  let executed ← perform BootOp.read_executed
  if executed ≠ 0 then return []
  else
    perform (BootOp.write_executed 1)
    start_once num_block_devs

/-- The hook, called `n` times. -/
def hook (num_block_devs : ℕ) : ℕ → BootProg (List (List AlephBDevMembers))
  | 0 => return []
  | n + 1 => do
      let devices ← start num_block_devs
      let rest ← hook num_block_devs n
      return devices :: rest

/-! ## The kernel around it -/

/-- What the kernel's variables for its classes point to, the two mutexes and the dictionary of
all classes, and where the metaclasses of the driver stand. -/
structure Registry where
  lock : Lock → UInt64
  dict : UInt64
  inst : Class → UInt64
  lock_ne : lock .stalled ≠ lock .all

/-- What the driver has done so far. `held` are the mutexes that it holds, the last one first,
`symbols` names the symbols that have been made, and `objects` are the objects that have been
allocated, each with the name of its class. -/
structure World where
  executed : UInt8
  held : List UInt64
  mutable : Bool
  vtable : Class → Option VTable
  metaVtable : Class → Option VTable
  installed : Class → Bool
  symbols : UInt64 → Option String
  dict : String → Option UInt64
  objects : List (String × UInt64)

/-- Before the first call of the hook. -/
def World.first (dict : String → Option UInt64) : World where
  executed := 0
  held := []
  mutable := false
  vtable _ := none
  metaVtable _ := none
  installed _ := false
  symbols _ := none
  dict := dict
  objects := []

section World

variable (reg : Registry) (size : UInt64 → ℕ)

/-- Answers within reason: a metaclass is constructed where it stands, or not at all, and the
host knows the sizes of its files. -/
def Sensible : (op : BootOp) → World → BootRes op → Prop
  | .read_executed, s, r => r = s.executed
  | .OSMetaClass_OSMetaClass c _ _ _, _, r => r = 0 ∨ r = reg.inst c
  | .setup (.qc_size_file i), _, r => r = Int64.ofNat (size i)
  | _, _, _ => True

/-- The variables of the kernel keep their pointers, and there is memory for a symbol. -/
def Steady : (op : BootOp) → BootRes op → Prop
  | .read_lock l, r => r = reg.lock l
  | .read_dict, r => r = reg.dict
  | .OSSymbol_withCStringNoCopy _, r => r ≠ 0
  | _, _ => True

/-- What a call does. Only the dictionary of all classes matters, and it takes nothing while it
is immutable, or under a key that is no symbol. -/
def World.after (s : World) : (op : BootOp) → BootRes op → World
  | .write_executed v, _ => { s with executed := v }
  | .lck_mtx_lock ptr, _ => { s with held := ptr :: s.held }
  | .lck_mtx_unlock ptr, _ => { s with held := s.held.erase ptr }
  | .store_vtable c t, _ => { s with vtable := Function.update s.vtable c (some t) }
  | .store_metaclass_vtable c t, _ =>
      { s with metaVtable := Function.update s.metaVtable c (some t) }
  | .store_mc_vtable c mc, _ =>
      if mc = reg.inst c then { s with installed := Function.update s.installed c true } else s
  | .write_options dict v, _ => if dict = reg.dict then { s with mutable := v &&& 1 == 0 } else s
  | .OSSymbol_withCStringNoCopy name, r =>
      if r = 0 then s else { s with symbols := Function.update s.symbols r (some name) }
  | .OSDictionary_setObject dict sym mc, _ =>
      match s.symbols sym with
      | some name =>
          if dict = reg.dict ∧ s.mutable = true then
            { s with dict := Function.update s.dict name (some mc) }
          else s
      | none => s
  | .setup .allocClassWithName, r => { s with objects := (BDEV_CLASS_NAME, r) :: s.objects }
  | .allocClassWithName name, r => { s with objects := (name, r) :: s.objects }
  | _, _ => s

/-- The kernel. -/
def bootEnv : Env BootOp BootRes World :=
  fun op s r s' => Sensible reg size op s r ∧ s' = s.after reg op r

/-- The kernel, where its variables keep their pointers and it has memory for symbols. -/
def steadyEnv : Env BootOp BootRes World :=
  fun op s r s' => bootEnv reg size op s r s' ∧ Steady reg op r

/-- Both tables of a class are in place, and its metaclass has the second. -/
def World.Complete (s : World) (c : Class) : Prop :=
  s.vtable c = some (create_vtable c) ∧ s.metaVtable c = some (create_metaclass_vtable c)
    ∧ s.installed c = true

/-- The kernel can find the class, and it is complete. -/
def World.Registered (s : World) (c : Class) : Prop :=
  s.Complete c ∧ s.dict c.name = some (reg.inst c)

/-- The first mutex is held, and no other. -/
def World.Stalls (s : World) : Prop := s.held = [reg.lock .stalled]

/-- Both are. -/
def World.Publishes (s : World) : Prop := s.held = [reg.lock .all, reg.lock .stalled]

/-- A virtual function of the class is that of the class it is made from. -/
def World.Inherits (s : World) (c : Class) (i : ℕ) : Prop :=
  ∃ t, s.vtable c = some t ∧ t i = .kernel c.parentVtable i

/-- A virtual call on an object that was allocated for the class, to such a function. -/
def World.Calls (s : World) (obj : UInt64) (c : Class) (i : ℕ) : Prop :=
  obj ≠ 0 ∧ (c.name, obj) ∈ s.objects ∧ s.Inherits c i

/-- What may be called in which state. -/
def Allowed : Option BootOp → World → Prop
  | some (.write_executed v), _ => v ≠ 0
  | some (.lck_mtx_lock ptr), s =>
      ptr ≠ 0 ∧ ptr ∉ s.held
        ∧ (ptr = reg.lock .stalled ∧ s.held = [] ∨ ptr = reg.lock .all ∧ s.Stalls reg)
  | some (.lck_mtx_unlock ptr), s => s.held.head? = some ptr
  | some (.store_vtable c _), s => s.Stalls reg ∧ s.installed c = false
  | some (.store_metaclass_vtable c _), s => s.Stalls reg ∧ s.installed c = false
  | some (.OSMetaClass_OSMetaClass c _ _ _), s => s.Stalls reg ∧ s.installed c = false
  | some (.store_mc_vtable c mc), s => s.Stalls reg ∧ mc = reg.inst c
  | some (.read_options dict), s => s.Publishes reg ∧ dict = reg.dict
  | some (.write_options dict _), s => s.Publishes reg ∧ dict = reg.dict
  | some (.OSDictionary_setObject dict sym mc), s =>
      s.Publishes reg ∧ dict = reg.dict ∧ s.mutable = true
        ∧ ∃ c, mc = reg.inst c ∧ s.symbols sym = some c.name ∧ s.Complete c
  | some (.read_class_name mc), s => s.Publishes reg ∧ ∃ c, mc = reg.inst c
  | some (.write_class_name mc _), s => s.Publishes reg ∧ ∃ c, mc = reg.inst c
  | some (.setup .allocClassWithName), s => s.Registered reg .bdev
  | some (.setup (.init obj)), s => s.Calls obj .bdev IOSERVICE_INIT_INDEX
  | some (.setup (.attach obj _)), s => s.Calls obj .bdev IOSERVICE_ATTACH_INDEX
  | some (.setup (.registerService obj)), s => s.Calls obj .bdev IOSERVICE_REG_SERVICE_INDEX
  | some (.allocClassWithName name), s => ∃ c, name = c.name ∧ s.Registered reg c
  | some (.init obj), s => s.Calls obj .fb IOSERVICE_INIT_INDEX
  | some (.setProperty obj _ val), s =>
      s.Calls obj .fb IOSERVICE_SET_PROPERTY_INDEX ∧ ∃ c, val = c.name ∧ s.Registered reg c
  | some (.attach obj _), s => s.Calls obj .fb IOSERVICE_ATTACH_INDEX
  | some (.registerService obj), s => s.Calls obj .fb IOSERVICE_REG_SERVICE_INDEX
  | _, _ => True

/-- Between two registrations: `l` are the classes that are known, the others are untouched. -/
structure World.Stage (s : World) (l : List Class) : Prop where
  executed : s.executed ≠ 0
  free : s.held = []
  registered : ∀ c ∈ l, s.Registered reg c
  fresh : ∀ c, c ∉ l → s.installed c = false

end World

section Cancel

variable {env : Env BootOp BootRes World} {I : Option BootOp → World → Prop} {α : Type}
  {Q : α → World → Prop} {s : World}

theorem always_cancel (hcancel : I (some .cancel) s) : Always env I Q
    (do
      let never ← perform BootOp.cancel
      never.elim : BootProg α) s :=
  ⟨hcancel, fun never => never.elim⟩

theorem unless_null_always (hcancel : I (some .cancel) s) {ptr : UInt64} {rest : BootProg α}
    (hrest : ptr ≠ 0 → Always env I Q rest s) : Always env I Q (unless_null ptr rest) s := by
  unfold unless_null
  split
  · exact always_cancel hcancel
  · rename_i hptr
    exact hrest hptr

end Cancel

/-! ## What the start makes -/

section Makes

variable {reg : Registry} {size : UInt64 → ℕ} {α : Type} {Q : α → World → Prop} {s : World}

/-- The calls that do not write the flag. -/
def NotFlag (op : BootOp) : Prop := ∀ v, op ≠ .write_executed v

theorem executed_after {op : BootOp} {r : BootRes op} (hop : NotFlag op) :
    (s.after reg op r).executed = s.executed := by
  cases op with
  | write_executed v => exact absurd rfl (hop v)
  | store_mc_vtable c mc =>
      show World.executed (if mc = reg.inst c then _ else s) = s.executed
      split <;> rfl
  | write_options dict v =>
      show World.executed (if dict = reg.dict then _ else s) = s.executed
      split <;> rfl
  | OSSymbol_withCStringNoCopy name =>
      rw [World.after]
      split <;> rfl
  | OSDictionary_setObject dict sym mc =>
      rw [World.after]
      split
      · split <;> rfl
      · rfl
  | setup op => cases op <;> rfl
  | _ => rfl

/-- A program of such calls. -/
theorem keeps_flag {p : BootProg α} (hp : Only NotFlag p) (hs : s.executed ≠ 0)
    (hQ : ∀ a s', s'.executed ≠ 0 → Q a s') :
    Always (bootEnv reg size) (fun _ _ => True) Q p s := by
  refine Always.mono (fun _ _ h => h) (fun a s' _ => hQ a s') (hp.always ?_ hs)
  rintro op s r s' hop ⟨-, rfl⟩ hs
  rw [executed_after hop]
  exact hs

theorem unless_null_only {S : BootOp → Prop} (hcancel : S .cancel) {ptr : UInt64}
    {rest : BootProg α} (hrest : Only S rest) : Only S (unless_null ptr rest) := by
  unfold unless_null
  split
  · exact ⟨hcancel, fun never => never.elim⟩
  · exact hrest

theorem only_perform {S : BootOp → Prop} {op : BootOp} (hop : S op) :
    Only S (perform op : BootProg (BootRes op)) :=
  ⟨hop, fun _ => trivial⟩

theorem mclass_reg_lock_only (l : Lock) : Only NotFlag (mclass_reg_lock l) :=
  only_bind (only_perform nofun) fun _ => unless_null_only nofun
    (only_bind (only_perform nofun) fun _ => only_perform nofun)

theorem mclass_reg_unlock_only (l : Lock) : Only NotFlag (mclass_reg_unlock l) :=
  only_bind (only_perform nofun) fun _ => only_perform nofun

theorem class_name_symbol_only (mc : UInt64) : Only NotFlag (class_name_symbol mc) := by
  refine only_bind (only_perform nofun) fun c_class_name => ?_
  split
  · exact only_bind (only_perform nofun) fun _ => only_perform nofun
  · trivial

theorem add_to_classes_dict_only (name : String) (mc : UInt64) :
    Only NotFlag (add_to_classes_dict name mc) := by
  refine only_bind (only_perform nofun) fun dict => unless_null_only nofun ?_
  refine only_bind (only_perform nofun) fun options => ?_
  refine only_bind (only_perform nofun) fun _ => ?_
  refine only_bind (only_perform nofun) fun sym => ?_
  exact only_bind (only_perform nofun) fun _ => class_name_symbol_only mc

theorem register_meta_class_only (c : Class) : Only NotFlag (register_meta_class c) := by
  refine only_bind (mclass_reg_lock_only .stalled) fun _ => ?_
  refine only_bind (only_perform nofun) fun _ => only_bind (only_perform nofun) fun _ => ?_
  refine only_bind (only_perform nofun) fun mc => unless_null_only nofun ?_
  refine only_bind (only_perform nofun) fun _ => ?_
  refine only_bind (mclass_reg_lock_only .all) fun _ => ?_
  refine only_bind (add_to_classes_dict_only _ _) fun _ => ?_
  exact only_bind (mclass_reg_unlock_only .all) fun _ => mclass_reg_unlock_only .stalled

theorem create_new_aleph_fbdev_only (service : UInt64) :
    Only NotFlag (create_new_aleph_fbdev service) := by
  refine only_bind (only_perform nofun) fun fbdev => unless_null_only nofun ?_
  refine only_bind (only_perform nofun) fun _ => unless_null_only nofun ?_
  refine only_bind (only_perform nofun) fun _ => ?_
  exact only_bind (only_perform nofun) fun _ => only_perform nofun

/-- The setup of a device as a part of this code: what it returns it returns in a run of its
own, in which the host has given the sizes of its files. -/
theorem setup_returns (p : Prog SetupOp SetupRes α) (hs : s.executed ≠ 0)
    (hQ : ∀ a tr s', s'.executed ≠ 0 → Returns p tr a →
      (∀ i r, ⟨.qc_size_file i, r⟩ ∈ tr → r = Int64.ofNat (size i)) → Q a s') :
    Always (bootEnv reg size) (fun _ _ => True) Q
      (interpret (fun op => perform (BootOp.setup op)) p) s := by
  induction p generalizing s with
  | ret a => exact ⟨trivial, hQ a [] s hs (Follows.refl _) fun i r h => nomatch h⟩
  | call op k ih =>
      rw [interpret_call, perform_bind]
      refine ⟨trivial, fun r s₁ ⟨hr, hs₁⟩ => ih r ?_ fun a tr s' hs' hret htr => ?_⟩
      · have hop : NotFlag (.setup op) := nofun
        rw [hs₁, executed_after hop]
        exact hs
      refine hQ a (⟨op, r⟩ :: tr) s' hs' hret.step fun i r' hmem => ?_
      rcases List.mem_cons.mp hmem with heq | hmem
      · cases heq
        exact hr
      · exact htr i r' hmem

/-- A device is not made without asking for the size of its file. -/
theorem asks_size {prod_name vendor_name mutex_name : List UInt8} {i parent_service : UInt64}
    {tr : List (Σ op, SetupRes op)} {members : AlephBDevMembers}
    (h : Returns (BlockDev.create_new_aleph_bdev prod_name vendor_name mutex_name i parent_service)
      tr members) : ∃ r, ⟨.qc_size_file i, r⟩ ∈ tr := by
  unfold BlockDev.create_new_aleph_bdev at h
  simp only [perform_bind, returns_call] at h
  obtain ⟨bdev, tr₁, rfl, h⟩ := h
  by_cases hbdev : bdev = 0
  · simp only [hbdev, if_true, returns_call] at h
    obtain ⟨never, -⟩ := h
    exact never.elim
  simp only [hbdev, if_false, returns_call] at h
  obtain ⟨_, _, rfl, _, _, rfl, _, _, rfl, r, _, rfl, -⟩ := h
  exact ⟨r, by simp⟩

theorem create_bdev_makes {names : Names} {i service : UInt64} {Q : AlephBDevMembers → World → Prop}
    (hs : s.executed ≠ 0) (hQ : ∀ members s', s'.executed ≠ 0 →
      Made i (Int64.ofNat (size i)) members → Q members s') :
    Always (bootEnv reg size) (fun _ _ => True) Q (create_bdev names i service) s := by
  refine setup_returns _ hs fun members tr s' hs' hret htr => hQ members s' hs' ?_
  obtain ⟨r, hmem⟩ := asks_size hret
  obtain rfl := htr i r hmem
  exact ⟨_, _, _, _, tr, hret, hmem⟩

/-- One device for each of the files from `i` on. -/
def MadeFrom (size : UInt64 → ℕ) : UInt64 → List AlephBDevMembers → Prop
  | _, [] => True
  | i, members :: rest => Made i (Int64.ofNat (size i)) members ∧ MadeFrom size (i + 1) rest

theorem create_bdevs_makes {service : UInt64} (n : ℕ) :
    ∀ {s : World} {Q : List AlephBDevMembers → World → Prop} (i : UInt64) (names : Names),
      s.executed ≠ 0 → (∀ devices s', s'.executed ≠ 0 → devices.length = n →
        MadeFrom size i devices → Q devices s') →
      Always (bootEnv reg size) (fun _ _ => True) Q (create_bdevs service n i names) s := by
  induction n with
  | zero => exact fun i names hs hQ => ⟨trivial, hQ [] _ hs rfl trivial⟩
  | succ n ih =>
      intro s Q i names hs hQ
      refine always_bind _ _ _ (create_bdev_makes hs fun members s₁ h₁ hmade => ?_)
      refine always_bind _ _ _ (keeps_flag (only_perform nofun) h₁ fun _ s₂ h₂ => ?_)
      refine always_bind _ _ _ (ih _ _ h₂ fun rest s' hs' hlen hrest => ?_)
      exact ⟨trivial, hQ _ s' hs' (congrArg (· + 1) hlen) ⟨hmade, hrest⟩⟩

/-- What the first call makes. -/
def StartMade (size : UInt64 → ℕ) (num_block_devs : ℕ) (devices : List AlephBDevMembers) : Prop :=
  num_block_devs ≤ NUM_BLOCK_DEVS_MAX ∧ devices.length = num_block_devs ∧ MadeFrom size 0 devices

theorem start_once_makes {num_block_devs : ℕ} (hs : s.executed ≠ 0) :
    Always (bootEnv reg size) (fun _ _ => True)
      (fun devices s' => s'.executed ≠ 0 ∧ StartMade size num_block_devs devices)
      (start_once num_block_devs) s := by
  unfold start_once unless_too_many
  split
  · exact always_cancel trivial
  rename_i hmax
  refine always_bind _ _ _ (keeps_flag (register_meta_class_only .bdev) hs fun _ s₁ h₁ => ?_)
  refine always_bind _ _ _ (keeps_flag (register_meta_class_only .fb) h₁ fun _ s₂ h₂ => ?_)
  refine always_bind _ _ _ (keeps_flag (register_meta_class_only .fbuc) h₂ fun _ s₃ h₃ => ?_)
  refine always_bind _ _ _ (keeps_flag (only_perform nofun) h₃ fun match_dict s₄ h₄ => ?_)
  refine always_bind _ _ _ (keeps_flag (only_perform nofun) h₄ fun service s₅ h₅ => ?_)
  refine unless_null_always trivial fun _ => ?_
  refine always_bind _ _ _ (keeps_flag (only_perform nofun) h₅ fun match_dict_disp s₆ h₆ => ?_)
  refine always_bind _ _ _ (keeps_flag (only_perform nofun) h₆ fun service_disp s₇ h₇ => ?_)
  refine unless_null_always trivial fun _ => ?_
  refine always_bind _ _ _ (create_bdevs_makes _ 0 _ h₇ fun devices s₈ h₈ hlen hmade => ?_)
  refine always_bind _ _ _ (keeps_flag (create_new_aleph_fbdev_only _) h₈ fun _ s₉ h₉ => ?_)
  exact ⟨trivial, h₉, Nat.not_lt.mp hmax, hlen, hmade⟩

theorem MadeFrom.at {devices : List AlephBDevMembers} :
    ∀ {i : UInt64}, MadeFrom size i devices → ∀ k (hk : k < devices.length),
      Made (i + UInt64.ofNat k) (Int64.ofNat (size (i + UInt64.ofNat k))) devices[k] := by
  induction devices with
  | nil => exact fun _ k hk => absurd hk (Nat.not_lt_zero k)
  | cons members rest ih =>
      rintro i ⟨hfirst, hrest⟩ k hk
      cases k with
      | zero =>
          rw [show UInt64.ofNat 0 = 0 from rfl, UInt64.add_zero]
          exact hfirst
      | succ k =>
          have hnext : i + UInt64.ofNat (k + 1) = i + 1 + UInt64.ofNat k := by
            rw [UInt64.ofNat_add, UInt64.add_assoc, UInt64.add_comm (UInt64.ofNat k)]
            rfl
          rw [hnext]
          exact ih hrest k (Nat.lt_of_succ_lt_succ hk)

/-- The devices, as a family. -/
theorem StartMade.devices (hsize : ∀ i, size i < 2 ^ 63) {n : ℕ}
    {devices : List AlephBDevMembers} (h : StartMade size n devices) :
    ∃ devs : Devices (Fin n), devs.size = size ∧ (∀ d, devs.index d = UInt64.ofNat d)
      ∧ devices = List.ofFn devs.members := by
  obtain ⟨hmax, rfl, hmade⟩ := h
  refine ⟨⟨fun d => UInt64.ofNat d, size, fun d => devices[d], fun d e hde => ?_, fun d => hsize _,
    fun d => ?_⟩, rfl, fun _ => rfl, List.ofFn_getElem.symm⟩
  · -- ten devices at most, so the indices do not wrap
    have hword : ∀ d : Fin devices.length, (UInt64.ofNat d).toNat = d := fun d =>
      UInt64.toNat_ofNat_of_lt' (Nat.lt_trans (Nat.lt_of_lt_of_le d.isLt hmax) (by decide))
    exact Fin.ext ((hword d).symm.trans ((congrArg UInt64.toNat hde).trans (hword e)))
  · have hat := hmade.at d d.isLt
    rw [UInt64.zero_add] at hat
    exact hat

end Makes

/-! ## The hook -/

section Hook

variable {reg : Registry} {size : UInt64 → ℕ} {env : Env BootOp BootRes World}
  {I : Option BootOp → World → Prop} {num_block_devs : ℕ}

/-- Later calls of the hook. -/
theorem hook_executed_always (henv : ∀ op s r s', env op s r s' → bootEnv reg size op s r s')
    (hI : ∀ s, I none s ∧ I (some .read_executed) s) (n : ℕ) :
    ∀ {s : World} {Q : List (List AlephBDevMembers) → World → Prop}, s.executed ≠ 0 →
      Q (List.replicate n []) s → Always env I Q (hook num_block_devs n) s := by
  induction n with
  | zero => exact fun _ hQ => ⟨(hI _).1, hQ⟩
  | succ n ih =>
      intro s Q hs hQ
      refine always_bind _ _ _ ?_
      unfold start
      rw [perform_bind]
      refine ⟨(hI s).2, fun executed s' hread => ?_⟩
      obtain ⟨hflag, rfl⟩ := henv _ _ _ _ hread
      have hset : executed ≠ 0 := fun h => hs (hflag.symm.trans h)
      beta_reduce
      rw [if_pos hset]
      exact ⟨(hI _).1, always_bind _ _ _ (ih hs ⟨(hI _).1, hQ⟩)⟩

/-- The hook from its first call on: the first call starts the driver, and that is all. -/
theorem hook_always (henv : ∀ op s r s', env op s r s' → bootEnv reg size op s r s')
    (hI : ∀ s, I none s ∧ I (some .read_executed) s ∧ I (some (.write_executed 1)) s)
    {dict : String → Option UInt64} {P : List AlephBDevMembers → World → Prop}
    (hstart : Always env I P (start_once num_block_devs) { World.first dict with executed := 1 })
    (hset : ∀ devices s, P devices s → s.executed ≠ 0) (n : ℕ)
    {Q : List (List AlephBDevMembers) → World → Prop}
    (hQ : ∀ devices s, P devices s → Q (devices :: List.replicate n []) s) :
    Always env I Q (hook num_block_devs (n + 1)) (World.first dict) := by
  refine always_bind _ _ _ ⟨(hI _).2.1, fun executed s' hread => ?_⟩
  obtain ⟨hflag, rfl⟩ := henv _ _ _ _ hread
  obtain rfl : executed = 0 := hflag
  refine ⟨(hI _).2.2, fun _ s' hwrite => ?_⟩
  obtain ⟨-, rfl⟩ := henv _ _ _ _ hwrite
  refine Always.mono (fun _ _ h => h) (fun devices s _ h => ?_) hstart
  refine always_bind _ _ _ (hook_executed_always henv (fun s => ⟨(hI s).1, (hI s).2.1⟩) n
    (hset devices s h) ?_)
  exact ⟨(hI s).1, hQ devices s h⟩

end Hook

/-- **What the start makes**: one device for each file, in the order of the files. It makes
them once. -/
theorem boot_devices (reg : Registry) (size : UInt64 → ℕ) (hsize : ∀ i, size i < 2 ^ 63)
    (num_block_devs calls : ℕ) (dict : String → Option UInt64) :
    Always (bootEnv reg size) (fun _ _ => True)
      (fun made _ => ∃ devs : Devices (Fin num_block_devs), devs.size = size
        ∧ (∀ d, devs.index d = UInt64.ofNat d)
        ∧ made = List.ofFn devs.members :: List.replicate calls [])
      (hook num_block_devs (calls + 1)) (World.first dict) := by
  have hone : (1 : UInt8) ≠ 0 := by decide
  refine hook_always (fun _ _ _ _ h => h) (fun _ => ⟨trivial, trivial, trivial⟩)
    (start_once_makes hone) (fun _ _ h => h.1) calls fun devices s h => ?_
  obtain ⟨devs, hfiles, hindex, rfl⟩ := h.2.devices hsize
  exact ⟨devs, hfiles, hindex, rfl⟩

/-- A kernel where every object is at address `1`, except for one mutex. -/
def onesRegistry : Registry where
  lock l := match l with
    | .stalled => 1
    | .all => 2
  dict := 1
  inst _ := 1
  lock_ne := by decide

/-- What it answers, with `sym` for a symbol. -/
def ones (sym : UInt64) (size : UInt64 → ℕ) : (op : BootOp) → World → Option (BootRes op)
  | .read_executed, s => some s.executed
  | .cancel, _ => none
  | .read_options _, _ => some (1 : UInt32)
  | .setup op, _ =>
      match op with
      | .allocClassWithName => some (1 : UInt64)
      | .init _ => some ()
      | .lck_grp_alloc_init _ => some (1 : UInt64)
      | .lck_mtx_alloc_init _ => some (1 : UInt64)
      | .qc_size_file i => some (Int64.ofNat (size i))
      | .attach _ _ => some (1 : UInt64)
      | .registerService _ => some ()
      | .cancel => none
  | .read_lock l, _ => some (onesRegistry.lock l)
  | .OSMetaClass_OSMetaClass _ _ _ _, _ => some (1 : UInt64)
  | .read_dict, _ => some (1 : UInt64)
  | .OSSymbol_withCStringNoCopy _, _ => some sym
  | .read_class_name _, _ => some (1 : UInt64)
  | .OSSymbol_of_class_name _, _ => some (1 : UInt64)
  | .IOService_serviceMatching _, _ => some (1 : UInt64)
  | .IOService_nameMatching _, _ => some (1 : UInt64)
  | .waitForMatchingService _ _, _ => some (1 : UInt64)
  | .allocClassWithName _, _ => some (1 : UInt64)
  | .attach _ _, _ => some (1 : UInt64)
  | .write_executed _, _ => some ()
  | .lck_mtx_lock _, _ => some ()
  | .lck_mtx_unlock _, _ => some ()
  | .store_vtable _ _, _ => some ()
  | .store_metaclass_vtable _ _, _ => some ()
  | .store_mc_vtable _ _, _ => some ()
  | .write_options _ _, _ => some ()
  | .OSDictionary_setObject _ _ _, _ => some ()
  | .write_class_name _ _, _ => some ()
  | .IOSleep _, _ => some ()
  | .init _, _ => some ()
  | .setProperty _ _ _, _ => some ()
  | .registerService _, _ => some ()

def onesHandler (sym : UInt64) (size : UInt64 → ℕ) : Handler BootOp BootRes World := fun op s =>
  (ones sym size op s).map fun r => (r, s.after onesRegistry op r)

theorem onesHandler_sensible {sym : UInt64} {size : UInt64 → ℕ} (op : BootOp) (s : World)
    (r : BootRes op) (s' : World) (h : onesHandler sym size op s = some (r, s')) :
    bootEnv onesRegistry size op s r s' := by
  obtain ⟨r₀, hr, heq⟩ := Option.map_eq_some_iff.mp h
  obtain ⟨rfl, rfl⟩ := Prod.mk.inj heq
  refine ⟨?_, rfl⟩
  cases op with
  | read_executed => exact (Option.some.inj hr).symm
  | OSMetaClass_OSMetaClass c name parent size => exact .inr (Option.some.inj hr).symm
  | setup op =>
      cases op with
      | qc_size_file i => exact (Option.some.inj hr).symm
      | _ => trivial
  | _ => trivial

/-- The hook is called three times, and there are two files of `100` bytes. -/
theorem boot_devices_two :
    ∃ made s, Prog.exec (onesHandler 1 fun _ => 100) (hook 2 3) (World.first fun _ => none)
        = some (made, s)
      ∧ ∃ devs : Devices (Fin 2), devs.size = (fun _ => 100)
        ∧ (∀ d, devs.index d = UInt64.ofNat d)
        ∧ made = List.ofFn devs.members :: List.replicate 2 [] := by
  have hruns : (Prog.exec (onesHandler 1 fun _ => 100) (hook 2 3)
    (World.first fun _ => none)).isSome := rfl
  obtain ⟨⟨made, s⟩, hrun⟩ := Option.isSome_iff_exists.mp hruns
  have hall := boot_devices onesRegistry (fun _ => 100) (fun _ => by decide) 2 2 fun _ => none
  exact ⟨made, s, hrun, hall.exec onesHandler_sensible hrun⟩

/-! ## Discipline -/

section Discipline

variable {reg : Registry} {size : UInt64 → ℕ} {α : Type} {Q : α → World → Prop} {s : World}

/-- A call that changes nothing. -/
theorem always_silent {op : BootOp} {k : BootRes op → BootProg α}
    (hallowed : Allowed reg (some op) s) (hafter : ∀ r, s.after reg op r = s)
    (hk : ∀ r, Steady reg op r → Always (steadyEnv reg size) (Allowed reg) Q (k r) s) :
    Always (steadyEnv reg size) (Allowed reg) Q (call op k) s := by
  refine ⟨hallowed, fun r s' ⟨⟨_, hs'⟩, hsteady⟩ => ?_⟩
  subst hs'
  rw [hafter]
  exact hk r hsteady

/-- A call that changes the world in one way. -/
theorem always_change {op : BootOp} {k : BootRes op → BootProg α} {s' : World}
    (hallowed : Allowed reg (some op) s) (hafter : ∀ r, s.after reg op r = s')
    (hk : ∀ r, Always (steadyEnv reg size) (Allowed reg) Q (k r) s') :
    Always (steadyEnv reg size) (Allowed reg) Q (call op k) s := by
  refine ⟨hallowed, fun r t ⟨⟨_, ht⟩, _⟩ => ?_⟩
  subst ht
  rw [hafter]
  exact hk r

/-- A mutex is taken: the pointer that was tested is the one that is locked. -/
theorem mclass_reg_lock_always {l : Lock} {Q : Unit → World → Prop}
    (hnot : reg.lock l ∉ s.held)
    (horder : reg.lock l = reg.lock .stalled ∧ s.held = []
      ∨ reg.lock l = reg.lock .all ∧ s.Stalls reg)
    (hQ : Q () { s with held := reg.lock l :: s.held }) :
    Always (steadyEnv reg size) (Allowed reg) Q (mclass_reg_lock l) s := by
  refine always_silent trivial (fun _ => rfl) fun ptr hptr => ?_
  obtain rfl : ptr = reg.lock l := hptr
  refine unless_null_always trivial fun hnull => ?_
  refine always_silent trivial (fun _ => rfl) fun ptr hptr => ?_
  obtain rfl : ptr = reg.lock l := hptr
  exact always_change ⟨hnull, hnot, horder⟩ (fun _ => rfl) fun _ => ⟨trivial, hQ⟩

/-- The mutex that was taken last is given back. -/
theorem mclass_reg_unlock_always {l : Lock} {rest : List UInt64} {Q : Unit → World → Prop}
    (hheld : s.held = reg.lock l :: rest) (hQ : Q () { s with held := rest }) :
    Always (steadyEnv reg size) (Allowed reg) Q (mclass_reg_unlock l) s := by
  refine always_silent trivial (fun _ => rfl) fun ptr hptr => ?_
  obtain rfl : ptr = reg.lock l := hptr
  have hhead : s.held.head? = some (reg.lock l) := by
    rw [hheld]
    rfl
  have herase : s.held.erase (reg.lock l) = rest := by
    rw [hheld, List.erase_cons_head]
  refine always_change hhead (fun _ => ?_) fun _ => ⟨trivial, hQ⟩
  rw [World.after, herase]

theorem class_name_symbol_always {c : Class} {Q : Unit → World → Prop} (hpub : s.Publishes reg)
    (hQ : Q () s) :
    Always (steadyEnv reg size) (Allowed reg) Q (class_name_symbol (reg.inst c)) s := by
  unfold class_name_symbol
  rw [perform_bind]
  refine always_silent ⟨hpub, c, rfl⟩ (fun _ => rfl) fun c_class_name _ => ?_
  split
  · refine always_silent trivial (fun _ => rfl) fun _ _ => ?_
    exact always_silent ⟨hpub, c, rfl⟩ (fun _ => rfl) fun _ _ => ⟨trivial, hQ⟩
  · exact ⟨trivial, hQ⟩

/-- Under both mutexes a complete class is put in the dictionary. -/
theorem add_to_classes_dict_always {c : Class} {Q : Unit → World → Prop}
    (hpub : s.Publishes reg) (hcomplete : s.Complete c)
    (hQ : ∀ symbols, Q ()
      { s with
        mutable := true
        symbols := symbols
        dict := Function.update s.dict c.name (some (reg.inst c)) }) :
    Always (steadyEnv reg size) (Allowed reg) Q (add_to_classes_dict c.name (reg.inst c)) s := by
  refine always_silent trivial (fun _ => rfl) fun dict hdict => ?_
  obtain rfl : dict = reg.dict := hdict
  refine unless_null_always trivial fun _ => ?_
  refine always_silent ⟨hpub, rfl⟩ (fun _ => rfl) fun options _ => ?_
  have hmask : (~~~1 &&& 1 : UInt32) = 0 := by decide
  have hmutable : (options &&& ~~~1 &&& 1 == 0) = true := by
    rw [UInt32.and_assoc, hmask, UInt32.and_zero]
    rfl
  have hoptions : ∀ r, s.after reg (.write_options reg.dict (options &&& ~~~1)) r
      = { s with mutable := true } := by
    intro r
    rw [World.after, if_pos rfl, hmutable]
  refine always_change ⟨hpub, rfl⟩ hoptions fun _ => ?_
  refine ⟨trivial, fun sym s' ⟨⟨_, hs'⟩, hnull⟩ => ?_⟩
  rw [World.after, if_neg hnull] at hs'
  subst hs'
  have hsym : (Function.update s.symbols sym (some c.name)) sym = some c.name :=
    Function.update_self ..
  have hafter : ∀ r, World.after reg
      { s with mutable := true, symbols := Function.update s.symbols sym (some c.name) }
      (.OSDictionary_setObject reg.dict sym (reg.inst c)) r
        = { s with
            mutable := true
            symbols := Function.update s.symbols sym (some c.name)
            dict := Function.update s.dict c.name (some (reg.inst c)) } := by
    intro r
    simp only [World.after, hsym, and_self, if_true]
  refine always_change ⟨hpub, rfl, rfl, c, rfl, hsym, hcomplete⟩ hafter fun _ => ?_
  -- what is left concerns the name of the metaclass only
  exact class_name_symbol_always hpub (hQ _)

/-- The state after a class has been put in the dictionary. -/
theorem publish_always {c : Class} {Q : Unit → World → Prop} (hstalls : s.Stalls reg)
    (hcomplete : s.Complete c)
    (hQ : ∀ symbols, Q ()
      { s with
        held := []
        mutable := true
        symbols := symbols
        dict := Function.update s.dict c.name (some (reg.inst c)) }) :
    Always (steadyEnv reg size) (Allowed reg) Q (publish c (reg.inst c)) s := by
  have hpub : reg.lock .all :: s.held = [reg.lock .all, reg.lock .stalled] :=
    congrArg (reg.lock .all :: ·) hstalls
  have hnot : reg.lock .all ∉ s.held := by
    rw [show s.held = _ from hstalls, List.mem_singleton]
    exact Ne.symm reg.lock_ne
  unfold publish
  refine always_bind _ _ _ (mclass_reg_lock_always hnot (.inr ⟨rfl, hstalls⟩) ?_)
  refine always_bind _ _ _ (add_to_classes_dict_always hpub hcomplete fun symbols => ?_)
  refine always_bind _ _ _ (mclass_reg_unlock_always hpub ?_)
  exact mclass_reg_unlock_always rfl (hQ symbols)

/-- The names of the classes differ. -/
theorem Class.name_ne {c d : Class} (h : d ≠ c) : d.name ≠ c.name := by
  cases c <;> cases d <;> first | exact absurd rfl h | decide

/-- **Registration** takes the class to those that are known. -/
theorem register_meta_class_always {c : Class} {l : List Class} {Q : Unit → World → Prop}
    (hstage : s.Stage reg l) (hc : c ∉ l) (hQ : ∀ s', World.Stage reg s' (c :: l) → Q () s') :
    Always (steadyEnv reg size) (Allowed reg) Q (register_meta_class c) s := by
  have hfresh := hstage.fresh c hc
  have hstalls : reg.lock .stalled :: s.held = [reg.lock .stalled] :=
    congrArg (reg.lock .stalled :: ·) hstage.free
  have hnot : reg.lock .stalled ∉ s.held := by
    rw [hstage.free]
    exact List.not_mem_nil
  unfold register_meta_class
  refine always_bind _ _ _ (mclass_reg_lock_always hnot (.inl ⟨rfl, hstage.free⟩) ?_)
  refine always_change ⟨hstalls, hfresh⟩ (fun _ => rfl) fun _ => ?_
  refine always_change ⟨hstalls, hfresh⟩ (fun _ => rfl) fun _ => ?_
  refine ⟨⟨hstalls, hfresh⟩, fun mc s' ⟨⟨hmc, hs'⟩, _⟩ => ?_⟩
  subst hs'
  refine unless_null_always trivial fun hnull => ?_
  obtain rfl : mc = reg.inst c := hmc.resolve_left hnull
  refine always_change ⟨hstalls, rfl⟩ (fun _ => if_pos rfl) fun _ => ?_
  have hcomplete : ∀ {t : World}, t.vtable c = some (create_vtable c) →
      t.metaVtable c = some (create_metaclass_vtable c) → t.installed c = true → t.Complete c :=
    fun hv hm hi => ⟨hv, hm, hi⟩
  refine publish_always hstalls (hcomplete (Function.update_self ..)
    (Function.update_self ..) (Function.update_self ..)) fun symbols =>
    hQ _ ⟨hstage.executed, rfl, ?_, ?_⟩
  · intro d hd
    by_cases hdc : d = c
    · subst hdc
      exact ⟨hcomplete (Function.update_self ..) (Function.update_self ..)
        (Function.update_self ..), Function.update_self ..⟩
    · -- a class that was known before is not touched
      obtain ⟨⟨hv, hm, hi⟩, hdict⟩ :=
        hstage.registered d ((List.mem_cons.mp hd).resolve_left hdc)
      exact ⟨⟨(Function.update_of_ne hdc ..).trans hv, (Function.update_of_ne hdc ..).trans hm,
        (Function.update_of_ne hdc ..).trans hi⟩,
        (Function.update_of_ne (Class.name_ne hdc) ..).trans hdict⟩
  · intro d hd
    obtain ⟨hdc, hdl⟩ := not_or.mp (mt List.mem_cons.mpr hd)
    exact (Function.update_of_ne hdc ..).trans (hstage.fresh d hdl)

/-! ## The devices of known classes -/

/-- All classes are known. -/
abbrev World.Full (reg : Registry) (s : World) : Prop := s.Stage reg [.fbuc, .fb, .bdev]

theorem World.Full.knows {s : World} (hs : s.Full reg) (c : Class) : s.Registered reg c :=
  World.Stage.registered hs c (by cases c <;> decide)

theorem World.Full.inherits {s : World} (hs : s.Full reg) {c : Class} {i : ℕ}
    (hi : c.overrides.lookup i = none) : s.Inherits c i := by
  refine ⟨create_vtable c, (hs.knows c).1.1, ?_⟩
  rw [table_eq, hi]

/-- An object more. -/
theorem World.Full.allocated {s : World} (hs : s.Full reg) (objects : List (String × UInt64)) :
    World.Full reg { s with objects := objects } := by
  obtain ⟨hexecuted, hfree, hregistered, hfresh⟩ := hs
  exact ⟨hexecuted, hfree, hregistered, hfresh⟩

/-- The virtual functions that the start calls are not replaced. -/
theorem World.Full.calls {s : World} (hs : s.Full reg) {c : Class} {obj : UInt64} {i : ℕ}
    (hnull : obj ≠ 0) (hobj : (c.name, obj) ∈ s.objects) (hi : c.overrides.lookup i = none) :
    s.Calls obj c i :=
  ⟨hnull, hobj, hs.inherits hi⟩

/-- A call that changes nothing, as a part of the setup of a device. -/
theorem setup_silent {op : SetupOp} {k : SetupRes op → Prog SetupOp SetupRes α}
    (hallowed : Allowed reg (some (.setup op)) s) (hafter : ∀ r, s.after reg (.setup op) r = s)
    (hk : ∀ r, Always (steadyEnv reg size) (Allowed reg) Q
      (interpret (fun op => perform (BootOp.setup op)) (k r)) s) :
    Always (steadyEnv reg size) (Allowed reg) Q
      (interpret (fun op => perform (BootOp.setup op)) (call op k)) s :=
  always_silent hallowed hafter fun r _ => hk r

theorem create_bdev_always {names : Names} {i service : UInt64} {Q : AlephBDevMembers → World → Prop}
    (hs : s.Full reg) (hQ : ∀ members s', World.Full reg s' → Q members s') :
    Always (steadyEnv reg size) (Allowed reg) Q (create_bdev names i service) s := by
  unfold create_bdev BlockDev.create_new_aleph_bdev
  refine ⟨hs.knows .bdev, fun bdev s' ⟨⟨_, hs'⟩, _⟩ => ?_⟩
  have hfull : World.Full reg s' := hs' ▸ hs.allocated _
  have hobj : (Class.bdev.name, bdev) ∈ s'.objects := by
    rw [hs']
    exact List.mem_cons_self ..
  show Always _ _ _ (interpret _ (ite (bdev = 0) _ _)) s'
  by_cases hnull : bdev = 0
  · rw [if_pos hnull]
    exact ⟨trivial, fun never => never.elim⟩
  rw [if_neg hnull]
  refine setup_silent (hfull.calls hnull hobj rfl) (fun _ => rfl) fun _ => ?_
  refine setup_silent trivial (fun _ => rfl) fun mtx_grp => ?_
  refine setup_silent trivial (fun _ => rfl) fun lck_mtx => ?_
  refine setup_silent trivial (fun _ => rfl) fun fileSize => ?_
  show Always _ _ _ (interpret _ (ite (service = 0) _ _)) s'
  by_cases hservice : service = 0
  · rw [if_pos hservice]
    exact ⟨trivial, fun never => never.elim⟩
  rw [if_neg hservice]
  refine setup_silent (hfull.calls hnull hobj rfl) (fun _ => rfl) fun _ => ?_
  refine setup_silent (hfull.calls hnull hobj rfl) (fun _ => rfl) fun _ => ?_
  exact ⟨trivial, hQ _ s' hfull⟩

theorem create_bdevs_always {service : UInt64} (n : ℕ) :
    ∀ {s : World} {Q : List AlephBDevMembers → World → Prop} (i : UInt64) (names : Names),
      World.Full reg s → (∀ devices s', World.Full reg s' → Q devices s') →
      Always (steadyEnv reg size) (Allowed reg) Q (create_bdevs service n i names) s := by
  induction n with
  | zero => exact fun i names hs hQ => ⟨trivial, hQ [] _ hs⟩
  | succ n ih =>
      intro s Q i names hs hQ
      refine always_bind _ _ _ (create_bdev_always hs fun members s₁ h₁ => ?_)
      rw [perform_bind]
      refine always_silent trivial (fun _ => rfl) fun _ _ => ?_
      refine always_bind _ _ _ (ih _ _ h₁ fun rest s' hs' => ?_)
      exact ⟨trivial, hQ _ s' hs'⟩

theorem create_new_aleph_fbdev_always {service : UInt64} {Q : Unit → World → Prop}
    (hs : s.Full reg) (hQ : ∀ s', World.Full reg s' → Q () s') :
    Always (steadyEnv reg size) (Allowed reg) Q (create_new_aleph_fbdev service) s := by
  refine ⟨⟨.fb, rfl, hs.knows .fb⟩, fun fbdev s' ⟨⟨_, hs'⟩, _⟩ => ?_⟩
  have hfull : World.Full reg s' := hs' ▸ hs.allocated _
  have hobj : (Class.fb.name, fbdev) ∈ s'.objects := by
    rw [hs']
    exact List.mem_cons_self ..
  refine unless_null_always trivial fun hnull => ?_
  refine always_silent (hfull.calls hnull hobj rfl) (fun _ => rfl) fun _ _ => ?_
  refine unless_null_always trivial fun _ => ?_
  refine always_silent ⟨hfull.calls hnull hobj rfl, .fbuc, rfl, hfull.knows .fbuc⟩ (fun _ => rfl)
    fun _ _ => ?_
  refine always_silent (hfull.calls hnull hobj rfl) (fun _ => rfl) fun _ _ => ?_
  exact always_silent (hfull.calls hnull hobj rfl) (fun _ => rfl) fun _ _ => ⟨trivial, hQ s' hfull⟩

theorem start_once_always {num_block_devs : ℕ} (hstage : s.Stage reg []) :
    Always (steadyEnv reg size) (Allowed reg) (fun _ s' => World.Full reg s')
      (start_once num_block_devs) s := by
  unfold start_once unless_too_many
  split
  · exact always_cancel trivial
  refine always_bind _ _ _ (register_meta_class_always hstage (by decide) fun s₁ h₁ => ?_)
  refine always_bind _ _ _ (register_meta_class_always h₁ (by decide) fun s₂ h₂ => ?_)
  refine always_bind _ _ _ (register_meta_class_always h₂ (by decide) fun s₃ hs => ?_)
  refine always_silent trivial (fun _ => rfl) fun match_dict _ => ?_
  refine always_silent trivial (fun _ => rfl) fun service _ => ?_
  refine unless_null_always trivial fun _ => ?_
  refine always_silent trivial (fun _ => rfl) fun match_dict_disp _ => ?_
  refine always_silent trivial (fun _ => rfl) fun service_disp _ => ?_
  refine unless_null_always trivial fun _ => ?_
  refine always_bind _ _ _ (create_bdevs_always _ _ _ hs fun devices s₄ h₄ => ?_)
  refine always_bind _ _ _ (create_new_aleph_fbdev_always h₄ fun s' hs' => ?_)
  exact ⟨trivial, hs'⟩

/-- Behind the flag. -/
theorem stage_first (dict : String → Option UInt64) :
    World.Stage reg { World.first dict with executed := 1 } [] where
  executed := (by decide : (1 : UInt8) ≠ 0)
  free := rfl
  registered := fun c hc => nomatch hc
  fresh := fun _ _ => rfl

end Discipline

/-- Where there is no memory for symbols, the hook returns all the same, and no class is in the
dictionary. -/
theorem boot_null_symbol : ∃ made s,
    Prog.exec (onesHandler 0 fun _ => 100) (hook 2 1) (World.first fun _ => none) = some (made, s)
      ∧ ∀ c : Class, s.dict c.name = none := by
  refine ⟨_, _, rfl, fun c => ?_⟩
  cases c <;> rfl

end XnuQemuTools.DriverBoot

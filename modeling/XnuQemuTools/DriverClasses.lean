/-
The three classes of the driver, and their registration with the kernel
(`aleph_*_mclass.c`, `mclass_reg.c`).

The driver adds classes to a running C++ kernel by hand. For each class it copies the virtual
table of a class of the kernel, replaces some entries, does the same with the table of the
metaclass, lets the kernel construct the metaclass, and puts it in the kernel's dictionary
of all classes under its name. The kernel has two mutexes for this, one around the stalled
classes and one around the dictionary, and the driver takes both.

`BootOp` has the calls and the accesses to the kernel's data that this takes, and also those
of `DriverBoot`. Pointers are their addresses; a static table of the driver is stored as
one operation, since nobody but the driver has it before it is published.

`table_eq` says what a virtual call of an object of these classes reaches.
-/
import XnuQemuTools.BlockDev

set_option autoImplicit false

namespace XnuQemuTools.DriverBoot

open Calls Calls.Prog
open BlockDev (SetupOp SetupRes)

/-! ## Classes -/

/-- The classes of the driver. -/
inductive Class where
  | bdev
  | fb
  | fbuc
  deriving DecidableEq

def BDEV_CLASS_NAME : String := "AlephStorageBlockDevice"
def FBDEV_CLASS_NAME : String := "IOMobileFramebuffer"
def FBUC_CLASS_NAME : String := "IOMobileFramebufferDeviceUserClient"

def Class.name : Class → String
  | bdev => BDEV_CLASS_NAME
  | fb => FBDEV_CLASS_NAME
  | fbuc => FBUC_CLASS_NAME

/-- The size of an object. -/
def Class.size : Class → UInt64
  | bdev => 0x2000
  | fb => 0x2000
  | fbuc => 0x2000

/-- The metaclass of the class of the kernel that this class is made from. -/
def Class.parentInst : Class → UInt64
  | bdev => 0xfffffff0076f6e58
  | fb => 0xfffffff007602b68
  | fbuc => 0xfffffff0076033f8

/-- The virtual table of that class, and of its metaclass. -/
def Class.parentVtable : Class → UInt64
  | bdev => 0xfffffff006e13c00
  | fb => 0xfffffff007086300
  | fbuc => 0xfffffff007090a78

def Class.parentMetaVtable : Class → UInt64
  | bdev => 0xfffffff006e14200
  | fb => 0xfffffff007086e80
  | fbuc => 0xfffffff007091058

/-! ## Virtual tables -/

/-- The virtual functions that the driver has of its own. -/
inductive OwnFunc where
  | AlephBlockDevice_getMetaClass
  | AlephBlockDevice_getVendorString
  | AlephBlockDevice_getProductString
  | AlephBlockDevice_reportBlockSize
  | AlephBlockDevice_reportMaxValidBlock
  | AlephBlockDevice_reportMediaState
  | AlephBlockDevice_reportRemovability
  | AlephBlockDevice_somefunc3
  | AlephBlockDevice_doAsyncReadWrite
  | AlephFramebufferDevice_getMetaClass
  | fbuc_destructor
  | fbuc_getMetaClass
  | fbuc_externalMethod
  | fbuc_initWithTask
  | fbuc_clientClose
  | fbuc_registerNotificationPort
  | fbuc_getNotificationSemaphore
  | fbuc_connectClient
  | fbuc_clientMemoryForType
  | fbuc_start
  | alloc (c : Class)
  deriving DecidableEq

/-- What an entry points to: an entry of a table of the kernel, or a function of the driver. -/
inductive Func where
  | kernel (vtable : UInt64) (index : ℕ)
  | own (f : OwnFunc)
  deriving DecidableEq

/-- The virtual functions by their index. -/
abbrev VTable : Type := ℕ → Func

def IOSERVICE_DESTRUCTOR_INDEX : ℕ := 1
def IOSERVICE_GETMCLASS_INDEX : ℕ := 7
def IOSERVICE_INIT_INDEX : ℕ := 20
def IOSERVICE_SET_PROPERTY_INDEX : ℕ := 25
def IOSERVICE_REG_SERVICE_INDEX : ℕ := 83
def IOSERVICE_START_INDEX : ℕ := 85
def IOSERVICE_ATTACH_INDEX : ℕ := 107
def IOUC_EXTERNAL_METHOD_INDEX : ℕ := 167
def IOUC_INIT_WITH_TASK_INDEX : ℕ := 170
def IOUC_CLIENT_CLOSE_INDEX : ℕ := 171
def IOUC_REG_NOTIF_PORT_INDEX : ℕ := 174
def IOUC_GET_NOTIFICATION_SEMAPHORE_INDEX : ℕ := 175
def IOUC_CONNECT_CLIENT_INDEX : ℕ := 176
def IOUC_CLIENT_MEM_FOR_TYPE_INDEX : ℕ := 177
def IOSTORAGEBDEV_GETVENDORSTRING_INDEX : ℕ := 171
def IOSTORAGEBDEV_GETPRODUCTSTRING_INDEX : ℕ := 172
def IOSTORAGEBDEV_REPORTBSIZE_INDEX : ℕ := 175
def IOSTORAGEBDEV_REPORTMAXVALIDBLOCK_INDEX : ℕ := 177
def IOSTORAGEBDEV_REPORTMEDIASTATE_INDEX : ℕ := 178
def IOSTORAGEBDEV_REPORTREMOVABILITY_INDEX : ℕ := 179
def IOSTORAGEBDEV_SOMEFUNC3_INDEX : ℕ := 180
def IOSTORAGEBDEV_DOASYNCREADWRITE_INDEX : ℕ := 183

/-- `alloc` in a `MetaClassVTable`, behind twelve functions. -/
def ALLOC_INDEX : ℕ := 12

/-- The entries that a class replaces, in the order of the assignments. -/
def Class.overrides : Class → List (ℕ × OwnFunc)
  | bdev =>
      [(IOSERVICE_GETMCLASS_INDEX, .AlephBlockDevice_getMetaClass),
        (IOSTORAGEBDEV_GETVENDORSTRING_INDEX, .AlephBlockDevice_getVendorString),
        (IOSTORAGEBDEV_GETPRODUCTSTRING_INDEX, .AlephBlockDevice_getProductString),
        (IOSTORAGEBDEV_REPORTBSIZE_INDEX, .AlephBlockDevice_reportBlockSize),
        (IOSTORAGEBDEV_REPORTMAXVALIDBLOCK_INDEX, .AlephBlockDevice_reportMaxValidBlock),
        (IOSTORAGEBDEV_REPORTMEDIASTATE_INDEX, .AlephBlockDevice_reportMediaState),
        (IOSTORAGEBDEV_REPORTREMOVABILITY_INDEX, .AlephBlockDevice_reportRemovability),
        (IOSTORAGEBDEV_SOMEFUNC3_INDEX, .AlephBlockDevice_somefunc3),
        (IOSTORAGEBDEV_DOASYNCREADWRITE_INDEX, .AlephBlockDevice_doAsyncReadWrite)]
  | fb => [(IOSERVICE_GETMCLASS_INDEX, .AlephFramebufferDevice_getMetaClass)]
  | fbuc =>
      [(IOSERVICE_DESTRUCTOR_INDEX, .fbuc_destructor),
        (IOSERVICE_GETMCLASS_INDEX, .fbuc_getMetaClass),
        (IOUC_EXTERNAL_METHOD_INDEX, .fbuc_externalMethod),
        (IOUC_INIT_WITH_TASK_INDEX, .fbuc_initWithTask),
        (IOUC_CLIENT_CLOSE_INDEX, .fbuc_clientClose),
        (IOUC_REG_NOTIF_PORT_INDEX, .fbuc_registerNotificationPort),
        (IOUC_GET_NOTIFICATION_SEMAPHORE_INDEX, .fbuc_getNotificationSemaphore),
        (IOUC_CONNECT_CLIENT_INDEX, .fbuc_connectClient),
        (IOUC_CLIENT_MEM_FOR_TYPE_INDEX, .fbuc_clientMemoryForType),
        (IOSERVICE_START_INDEX, .fbuc_start)]

/-- `memcpy` of a table of the kernel. -/
def copied (vtable : UInt64) : VTable := fun i => .kernel vtable i

/-- The assignments to a table, one after the other. -/
def assign (t : VTable) (l : List (ℕ × OwnFunc)) : VTable :=
  l.foldl (fun t x => Function.update t x.1 (.own x.2)) t

def create_vtable (c : Class) : VTable := assign (copied c.parentVtable) c.overrides

/-- `create_bdev_vtable`. -/
def create_bdev_vtable : VTable := create_vtable .bdev
/-- `create_fb_vtable`. -/
def create_fb_vtable : VTable := create_vtable .fb
/-- `create_fbuc_vtable`. -/
def create_fbuc_vtable : VTable := create_vtable .fbuc

/-- `create_*_metaclass_vtable`. -/
def create_metaclass_vtable (c : Class) : VTable :=
  assign (copied c.parentMetaVtable) [(ALLOC_INDEX, .alloc c)]

theorem assign_other {l : List (ℕ × OwnFunc)} {i : ℕ} (hi : i ∉ l.map Prod.fst) (t : VTable) :
    assign t l i = t i := by
  induction l generalizing t with
  | nil => rfl
  | cons x l ih =>
      obtain ⟨hx, hl⟩ := not_or.mp (mt List.mem_cons.mpr hi)
      exact (ih hl _).trans (Function.update_of_ne hx ..)

theorem assign_at {l : List (ℕ × OwnFunc)} (hl : (l.map Prod.fst).Nodup) {x : ℕ × OwnFunc}
    (hx : x ∈ l) (t : VTable) : assign t l x.1 = .own x.2 := by
  induction l generalizing t with
  | nil => cases hx
  | cons y l ih =>
      obtain ⟨hy, hnodup⟩ := List.nodup_cons.mp hl
      rcases List.mem_cons.mp hx with rfl | hrest
      · exact (assign_other hy _).trans (Function.update_self ..)
      · exact ih hnodup hrest _

/-- **What a virtual call reaches**: the driver's function where the class replaces the entry,
and else the function that the class of the kernel has there. -/
theorem table_eq (c : Class) (i : ℕ) :
    create_vtable c i = match c.overrides.lookup i with
      | some f => .own f
      | none => .kernel c.parentVtable i := by
  have hnodup : (c.overrides.map Prod.fst).Nodup := by cases c <;> decide
  cases hlookup : c.overrides.lookup i with
  | none =>
      refine assign_other (fun hmem => ?_) _
      obtain ⟨x, hx, rfl⟩ := List.mem_map.mp hmem
      exact bne_iff_ne.mp (List.lookup_eq_none_iff.mp hlookup x hx) rfl
  | some f =>
      obtain ⟨l₁, l₂, hl, -⟩ := List.lookup_eq_some_iff.mp hlookup
      exact assign_at hnodup (x := (i, f)) (hl ▸ List.mem_append_right _ (List.mem_cons_self ..)) _

/-! ## Registration -/

/-- `*SALLCLASSESLOCK_PTR` and `*SSTALLEDCLASSESLOCK_PTR`. -/
inductive Lock where
  | all
  | stalled
  deriving DecidableEq

/-- The calls and accesses of the code that starts the driver. -/
inductive BootOp where
  | read_executed
  | write_executed (v : UInt8)
  | cancel
  | read_lock (l : Lock)
  | lck_mtx_lock (ptr : UInt64)
  | lck_mtx_unlock (ptr : UInt64)
  | store_vtable (c : Class) (t : VTable)
  | store_metaclass_vtable (c : Class) (t : VTable)
  | OSMetaClass_OSMetaClass (c : Class) (name : String) (parent size : UInt64)
  | store_mc_vtable (c : Class) (mc : UInt64)
  | read_dict
  | read_options (dict : UInt64)
  | write_options (dict : UInt64) (v : UInt32)
  | OSSymbol_withCStringNoCopy (name : String)
  | OSDictionary_setObject (dict sym mc : UInt64)
  | read_class_name (mc : UInt64)
  | OSSymbol_of_class_name (ptr : UInt64)
  | write_class_name (mc sym : UInt64)
  | IOService_serviceMatching (name : String)
  | IOService_nameMatching (name : String)
  | waitForMatchingService (dict timeout : UInt64)
  | setup (op : SetupOp)
  | IOSleep (millisecs : UInt64)
  | allocClassWithName (name : String)
  | init (obj : UInt64)
  | setProperty (obj : UInt64) (key val : String)
  | attach (obj parent_service : UInt64)
  | registerService (obj : UInt64)

/-- What each of them answers. -/
abbrev BootRes : BootOp → Type
  | .read_executed => UInt8
  | .cancel => Empty
  | .read_lock _ => UInt64
  | .OSMetaClass_OSMetaClass _ _ _ _ => UInt64
  | .read_dict => UInt64
  | .read_options _ => UInt32
  | .OSSymbol_withCStringNoCopy _ => UInt64
  | .read_class_name _ => UInt64
  | .OSSymbol_of_class_name _ => UInt64
  | .IOService_serviceMatching _ => UInt64
  | .IOService_nameMatching _ => UInt64
  | .waitForMatchingService _ _ => UInt64
  | .setup op => SetupRes op
  | .allocClassWithName _ => UInt64
  | .attach _ _ => UInt64
  | _ => Unit

/-- A piece of this code. -/
abbrev BootProg : Type → Type := Prog BootOp BootRes

/-- `if (NULL == ptr) cancel();`, then the rest. -/
def unless_null {α : Type} (ptr : UInt64) (rest : BootProg α) : BootProg α :=
  if ptr = 0 then do
    let never ← perform BootOp.cancel
    never.elim
  else rest

/-- `mclass_reg_alock_lock` and `mclass_reg_slock_lock`: the pointer is read twice. -/
def mclass_reg_lock (l : Lock) : BootProg Unit := do
  let ptr ← perform (BootOp.read_lock l)
  unless_null ptr do
    let ptr ← perform (BootOp.read_lock l)
    perform (BootOp.lck_mtx_lock ptr)

/-- `mclass_reg_alock_unlock` and `mclass_reg_slock_unlock`. -/
def mclass_reg_unlock (l : Lock) : BootProg Unit := do
  let ptr ← perform (BootOp.read_lock l)
  perform (BootOp.lck_mtx_unlock ptr)

/-- The end of `add_to_classes_dict`: the name of the metaclass becomes a symbol. -/
def class_name_symbol (mc : UInt64) : BootProg Unit := do
  let c_class_name ← perform (BootOp.read_class_name mc)
  if c_class_name ≠ 0 then
    let sym ← perform (BootOp.OSSymbol_of_class_name c_class_name)
    perform (BootOp.write_class_name mc sym)
  else return ()

/-- `add_to_classes_dict`. -/
def add_to_classes_dict (name : String) (mc : UInt64) : BootProg Unit := do
  let dict ← perform BootOp.read_dict
  unless_null dict do
    -- the dictionary is no longer immutable
    let options ← perform (BootOp.read_options dict)
    perform (BootOp.write_options dict (options &&& ~~~1))
    let sym ← perform (BootOp.OSSymbol_withCStringNoCopy name)
    perform (BootOp.OSDictionary_setObject dict sym mc)
    class_name_symbol mc

/-- The class is put in the dictionary, under the second mutex. -/
def publish (c : Class) (mc : UInt64) : BootProg Unit := do
  mclass_reg_lock .all
  add_to_classes_dict c.name mc
  mclass_reg_unlock .all
  mclass_reg_unlock .stalled

/-- The three `register_*_meta_class`. -/
def register_meta_class (c : Class) : BootProg Unit := do
  mclass_reg_lock .stalled
  perform (BootOp.store_vtable c (create_vtable c))
  perform (BootOp.store_metaclass_vtable c (create_metaclass_vtable c))
  let mc ← perform (BootOp.OSMetaClass_OSMetaClass c c.name c.parentInst c.size)
  unless_null mc do
    perform (BootOp.store_mc_vtable c mc)
    publish c mc

/-- `register_bdev_meta_class`. -/
def register_bdev_meta_class : BootProg Unit := register_meta_class .bdev
/-- `register_fb_meta_class`. -/
def register_fb_meta_class : BootProg Unit := register_meta_class .fb
/-- `register_fbuc_meta_class`. -/
def register_fbuc_meta_class : BootProg Unit := register_meta_class .fbuc

end XnuQemuTools.DriverBoot
